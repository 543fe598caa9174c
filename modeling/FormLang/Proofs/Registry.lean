import Mathlib.Data.List.Nodup
import FormLang.Registry
import FormLang.Proofs.Text.OneLine

/-!
# The default registry

Each name is entered once (`eq_of_mem_defaults`), with a float or with a built-in of that name (`name_of_mem_defaults`).
-/

namespace FormLang.Registry

/-- The name that an entry prints. -/
def printedName : String × Value → String
  | (_, .builtin b) => b.name
  | (name, _) => name

/-- Built-ins are entered under their own names. -/
theorem name_of_mem_defaults {registry : Nat} {name : String} {b : Builtin}
    (h : (name, .builtin b) ∈ (defaults registry).entries) : b.name = name := by
  have hnames : (defaults registry).entries.map printedName = (defaults registry).entries.map (·.1) := rfl
  exact List.map_inj_left.mp hnames _ h

theorem oneLine_of_mem_defaults {registry : Nat} {p : String × Value} (h : p ∈ (defaults registry).entries) :
    Text.OneLine p.1 := by
  have hnames : (defaults registry).entries.map (·.1) = (defaults 0).entries.map (·.1) := rfl
  have hall : ((defaults 0).entries.map (·.1)).all (fun name => decide (Text.OneLine name)) = true := by decide +kernel
  have hmem : p.1 ∈ (defaults 0).entries.map (·.1) := hnames ▸ List.mem_map_of_mem h
  exact of_decide_eq_true (List.all_eq_true.mp hall _ hmem)

theorem nodup_defaults (registry : Nat) : ((defaults registry).entries.map (·.1)).Nodup := by
  have hnames : (defaults registry).entries.map (·.1) = (defaults 0).entries.map (·.1) := rfl
  rw [hnames]
  decide +kernel

theorem eq_of_mem_defaults {registry : Nat} {name : String} {v w : Value} (hv : (name, v) ∈ (defaults registry).entries)
    (hw : (name, w) ∈ (defaults registry).entries) : v = w :=
  congrArg Prod.snd (List.inj_on_of_nodup_map (nodup_defaults registry) hv hw rfl)

/-- Whether a value is a float or a built-in. -/
def isFloatOrBuiltin : Value → Bool
  | .float _ | .builtin _ => true
  | _ => false

theorem isFloatOrBuiltin_of_mem_defaults {registry : Nat} {p : String × Value} (h : p ∈ (defaults registry).entries) :
    isFloatOrBuiltin p.2 = true := by
  have hall : ((defaults registry).entries.map (·.2)).all isFloatOrBuiltin = true := rfl
  exact List.all_eq_true.mp hall _ (List.mem_map_of_mem h)

end FormLang.Registry
