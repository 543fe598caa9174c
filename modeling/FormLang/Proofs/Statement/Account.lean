import FormLang.Proofs.Statement.Gathering

/-!
# Every line is accounted for

A gatherer takes requests in any order: to be fed a line, to be flushed, to be reset. The requests of a run fall into
stretches, one after another (`Stretch`): lines that were handed over when the last of them was fed, lines that a flush
handed over, lines that a reset discarded, and blank lines between statements. What is left at the end is pending. So no
line is lost, repeated or moved, and the number reported with a statement is that of its first line.

The state of a gatherer is described by the lines it keeps and the number of the first one (`Keeps`). One lemma for each
request says which stretch it ends, if any (`feed_cases`, `flush_cases`, `Keeps.reset`); `Keeps.tiled` puts them together
for a run.
-/

namespace FormLang

/-! ## Unfinished lines -/

/-- A parenthesis is open after the lines, and none was closed that was never opened. -/
def Unfinished (ls : List String) : Prop :=
  0 < (Token.depth (Token.ofText (Text.unlines ls))).net ∧ 0 ≤ (Token.depth (Token.ofText (Text.unlines ls))).low

/-- After each of the lines the ones so far were unfinished. -/
def Awaiting (ls : List String) : Prop :=
  ∀ init, init <+: ls → init ≠ [] → Unfinished init

theorem Token.depth_append (ts us : List Token) : depth (ts ++ us) = us.foldl Depth.next (depth ts) :=
  List.foldl_append

theorem Token.ofText_unlines_concat (ls : List String) (line : String) :
    ofText (Text.unlines (ls ++ [line])) = ofText (Text.unlines ls) ++ ofText line := by
  rw [ofText_unlines, ofText_unlines, List.flatMap_append, List.flatMap_singleton]

theorem Unfinished.ofText_ne_nil {ls : List String} (h : Unfinished ls) : Token.ofText (Text.unlines ls) ≠ [] := by
  intro hnil
  have hnet := h.1
  rw [hnil] at hnet
  exact absurd hnet (by decide)

theorem awaiting_nil : Awaiting [] :=
  fun _ hprefix hne => absurd (List.prefix_nil.mp hprefix) hne

theorem Awaiting.unfinished {ls : List String} (h : Awaiting ls) (hne : ls ≠ []) : Unfinished ls :=
  h ls (List.prefix_refl ls) hne

theorem Awaiting.concat {ls : List String} {line : String} (h : Awaiting ls) (hlast : Unfinished (ls ++ [line])) :
    Awaiting (ls ++ [line]) := by
  intro init hprefix hne
  rcases List.prefix_concat_iff.mp hprefix with rfl | hprefix
  · exact hlast
  · exact h init hprefix hne

/-- The first line has tokens. -/
theorem Awaiting.ofText_head_ne_nil {line : String} {ls : List String} (h : Awaiting (line :: ls)) :
    Token.ofText line ≠ [] :=
  (h [line] ⟨ls, rfl⟩ (List.cons_ne_nil _ _)).ofText_ne_nil

/-! ## Requests -/

/-- What a gatherer can be asked to do. -/
inductive Request where
  | feed (line : String)
  | flush
  | reset
  deriving DecidableEq, Repr

namespace Gatherer

def answer (g : Gatherer) : Request → Option String × Gatherer
  | .feed line => g.feed line
  | .flush => g.flush
  | .reset => (none, g.reset)

def after (g : Gatherer) : List Request → Gatherer
  | [] => g
  | r :: rest => (g.answer r).2.after rest

/-- The statements that some requests return, each with the request that returned it. -/
def returned (g : Gatherer) : List Request → List (Request × Statement)
  | [] => []
  | r :: rest =>
    match g.answer r with
    | (some text, g) => (r, ⟨g.start, text⟩) :: g.returned rest
    | (none, g) => g.returned rest

theorem returned_cons (g : Gatherer) (r : Request) (rest : List Request) :
    g.returned (r :: rest) = g.returned [r] ++ (g.answer r).2.returned rest := by
  rw [returned, returned]
  split <;> rename_i hanswer <;> rw [hanswer] <;> rfl

end Gatherer

/-! ## Stretches -/

/-- Requests that belong together. -/
inductive Stretch where
  /-- Lines that are handed over as the last of them is fed. -/
  | complete (init : List String) (last : String)
  /-- Lines that are handed over by a flush, if there are any. -/
  | flushed (lines : List String)
  | discarded (lines : List String)
  /-- A blank line with nothing pending. -/
  | blank (line : String)

namespace Stretch

def lines : Stretch → List String
  | .complete init last => init ++ [last]
  | .flushed ls | .discarded ls => ls
  | .blank line => [line]

def requests : Stretch → List Request
  | .complete init last => (init ++ [last]).map .feed
  | .flushed ls => ls.map .feed ++ [.flush]
  | .discarded ls => ls.map .feed ++ [.reset]
  | .blank line => [.feed line]

/-- A statement is complete with its last line and not before; what is flushed or discarded is not complete. -/
def Sound : Stretch → Prop
  | .complete init last => Token.ofText (Text.unlines (init ++ [last])) ≠ [] ∧ ¬ Unfinished (init ++ [last]) ∧
      Awaiting init
  | .flushed ls | .discarded ls => Awaiting ls
  | .blank line => Text.isBlankText line = true

/-- The statement that a stretch hands over, if its first line has this number. -/
def returned (first : Nat) : Stretch → List (Request × Statement)
  | .complete init last => [(.feed last, ⟨first, Text.unlines (init ++ [last])⟩)]
  | .flushed (l :: ls) => [(.flush, ⟨first, Text.unlines (l :: ls)⟩)]
  | .flushed [] | .discarded _ | .blank _ => []

/-- The statements that stretches hand over one after another, numbered from a line on. -/
def returnedFrom (first : Nat) : List Stretch → List (Request × Statement)
  | [] => []
  | st :: rest => st.returned first ++ returnedFrom (first + st.lines.length) rest

end Stretch

/-! ## What a gatherer keeps -/

namespace Gatherer

/-- The gatherer keeps these lines, the first of which has this number, and more lines are needed. -/
structure Keeps (g : Gatherer) (first : Nat) (ls : List String) : Prop where
  pending : g.pending = ls.reverse
  depth : g.depth = Token.depth (Token.ofText (Text.unlines ls))
  awaiting : Awaiting ls
  start : ls ≠ [] → g.start = first
  next : g.next = first + ls.length

theorem keeps_empty : empty.Keeps 1 [] :=
  ⟨rfl, rfl, awaiting_nil, fun h => absurd rfl h, rfl⟩

namespace Keeps

variable {g : Gatherer} {first : Nat} {ls : List String} (h : g.Keeps first ls)

include h

theorem text : g.text = Text.unlines ls := by
  rw [Gatherer.text, h.pending, List.reverse_reverse]

theorem isPending_eq_false_iff : g.isPending = false ↔ ls = [] := by
  rw [isPending, h.pending]
  simp

theorem isPending_iff : g.isPending = true ↔ ls ≠ [] := by
  rw [← Bool.not_eq_false, h.isPending_eq_false_iff]

theorem reset : g.reset.Keeps (first + ls.length) [] :=
  ⟨rfl, rfl, awaiting_nil, fun hne => absurd rfl hne, h.next⟩

/-- After a line is added its own lines are those before and the new one. -/
theorem depth_push (line : String) : (g.push line).depth = Token.depth (Token.ofText (Text.unlines (ls ++ [line]))) := by
  rw [push, h.depth, Token.ofText_unlines_concat, Token.depth_append]

theorem start_push (line : String) : (g.push line).start = first := by
  rw [push]
  by_cases hls : ls = []
  · simp only [h.isPending_eq_false_iff.mpr hls, Bool.false_eq_true, if_false]
    rw [h.next, hls]
    rfl
  · simp only [h.isPending_iff.mpr hls, if_true]
    exact h.start hls

theorem isOpen_push_iff (line : String) : (g.push line).isOpen = true ↔ Unfinished (ls ++ [line]) := by
  rw [isOpen, h.depth_push line, Bool.and_eq_true, decide_eq_true_eq, decide_eq_true_eq]
  rfl

theorem push {line : String} (hopen : Unfinished (ls ++ [line])) : (g.push line).Keeps first (ls ++ [line]) where
  pending := by
    rw [Gatherer.push, h.pending, List.reverse_append]
    rfl
  depth := h.depth_push line
  awaiting := h.awaiting.concat hopen
  start _ := h.start_push line
  next := by
    rw [Gatherer.push, h.next, List.length_append, ← Nat.add_assoc]
    rfl

/-- Feeding a line passes over a blank line between statements, or keeps the line, or hands over all lines with it. -/
theorem feed_cases (line : String) :
    (ls = [] ∧ Text.isBlankText line = true ∧ ∃ g', g.feed line = (none, g') ∧ g'.Keeps (first + 1) []) ∨
    (∃ g', g.feed line = (none, g') ∧ g'.Keeps first (ls ++ [line])) ∨
    ((Stretch.complete ls line).Sound ∧ ∃ g', g.feed line = (some (Text.unlines (ls ++ [line])), g') ∧ g'.start = first ∧
      g'.Keeps (first + (ls.length + 1)) []) := by
  rw [feed]
  by_cases hblank : (!g.isPending && Text.isBlankText line) = true
  · left
    rw [if_pos hblank]
    rw [Bool.and_eq_true, Bool.not_eq_true', h.isPending_eq_false_iff] at hblank
    obtain ⟨rfl, hline⟩ := hblank
    exact ⟨rfl, hline, _, rfl, ⟨h.pending, h.depth, awaiting_nil, fun hne => absurd rfl hne, by rw [h.next]; rfl⟩⟩
  · right
    rw [if_neg hblank]
    by_cases hopen : Unfinished (ls ++ [line])
    · left
      exact ⟨_, by rw [if_pos ((h.isOpen_push_iff line).mpr hopen)], h.push hopen⟩
    · right
      have hclosed : ¬ (g.push line).isOpen = true := fun hpush => hopen ((h.isOpen_push_iff line).mp hpush)
      have htext : (g.push line).text = Text.unlines (ls ++ [line]) := by
        rw [Gatherer.text, Gatherer.push, h.pending, List.reverse_cons, List.reverse_reverse]
      have htokens : Token.ofText (Text.unlines (ls ++ [line])) ≠ [] := by
        rw [Token.ofText_unlines_concat]
        intro hnil
        obtain ⟨hbefore, hafter⟩ := List.append_eq_nil_iff.mp hnil
        by_cases hls : ls = []
        · apply hblank
          rw [h.isPending_eq_false_iff.mpr hls, Token.isBlankText_of_ofText_eq_nil hafter]
          rfl
        · exact (h.awaiting.unfinished hls).ofText_ne_nil hbefore
      refine ⟨⟨htokens, hopen, h.awaiting⟩, (g.push line).reset, by rw [if_neg hclosed, htext], h.start_push line, ?_⟩
      refine ⟨rfl, rfl, awaiting_nil, fun hne => absurd rfl hne, ?_⟩
      rw [Gatherer.reset, Gatherer.push, h.next]
      rfl

/-- A flush hands over the lines if there are any, and nothing is kept after it. -/
theorem flush_cases :
    (ls = [] ∧ g.flush = (none, g)) ∨
    (ls ≠ [] ∧ ∃ g', g.flush = (some (Text.unlines ls), g') ∧ g'.start = first ∧ g'.Keeps (first + ls.length) []) := by
  rw [flush]
  by_cases hls : ls = []
  · left
    rw [h.isPending_eq_false_iff.mpr hls]
    exact ⟨hls, rfl⟩
  · right
    rw [if_pos (h.isPending_iff.mpr hls), h.text]
    exact ⟨hls, g.reset, rfl, h.start hls, h.reset⟩

end Keeps

/-! ## Runs -/

/-- The requests, after those that fed the lines kept before, fall into stretches and the lines kept in the end. -/
def Tiled (g : Gatherer) (first : Nat) (ls : List String) (rs : List Request) : Prop :=
  ∃ (sts : List Stretch) (ls' : List String), (∀ st ∈ sts, st.Sound) ∧
    ls.map .feed ++ rs = sts.flatMap Stretch.requests ++ ls'.map .feed ∧
    g.returned rs = Stretch.returnedFrom first sts ∧
    (g.after rs).Keeps (first + (sts.flatMap Stretch.lines).length) ls'

theorem Tiled.cons {g : Gatherer} {first : Nat} {ls : List String} {r : Request} {rest : List Request} (st : Stretch)
    (hsound : st.Sound) (hrequests : ls.map .feed ++ [r] = st.requests) (hreturned : g.returned [r] = st.returned first)
    (h : (g.answer r).2.Tiled (first + st.lines.length) [] rest) : g.Tiled first ls (r :: rest) := by
  obtain ⟨sts, ls', hsounds, hrest, hstatements, hkeeps⟩ := h
  refine ⟨st :: sts, ls', List.forall_mem_cons.mpr ⟨hsound, hsounds⟩, ?_, ?_, ?_⟩
  · rw [List.map_nil, List.nil_append] at hrest
    rw [List.flatMap_cons, List.append_assoc, ← hrest, ← hrequests, List.append_assoc, List.singleton_append]
  · rw [returned_cons, hreturned, hstatements, Stretch.returnedFrom]
  · rw [List.flatMap_cons, List.length_append, ← Nat.add_assoc]
    exact hkeeps

/-- **The requests of a run fall into stretches.** -/
theorem Keeps.tiled {g : Gatherer} {first : Nat} {ls : List String} (h : g.Keeps first ls) (rs : List Request) :
    g.Tiled first ls rs := by
  induction rs generalizing g first ls with
  | nil => exact ⟨[], ls, by simp, by simp, rfl, h⟩
  | cons r rest ih =>
    cases r with
    | feed line =>
      rcases h.feed_cases line with ⟨rfl, hblank, g', hfeed, hkeeps⟩ | ⟨g', hfeed, hkeeps⟩ |
        ⟨hsound, g', hfeed, hstart, hkeeps⟩
      · refine Tiled.cons (.blank line) hblank rfl ?_ ?_
        · rw [returned, answer, hfeed]
          rfl
        · rw [answer, hfeed]
          exact ih hkeeps
      · -- The line joins those kept, so no stretch ends here.
        obtain ⟨sts, ls', hsounds, hrest, hstatements, hkeeps'⟩ := ih hkeeps
        refine ⟨sts, ls', hsounds, ?_, ?_, ?_⟩
        · rw [← hrest, List.map_append, List.append_assoc]
          rfl
        · rw [returned, answer, hfeed]
          exact hstatements
        · rw [after, answer, hfeed]
          exact hkeeps'
      · refine Tiled.cons (.complete ls line) hsound ?_ ?_ ?_
        · rw [Stretch.requests, List.map_append, List.map_singleton]
        · rw [returned, answer, hfeed, ← hstart]
          rfl
        · rw [answer, hfeed, Stretch.lines, List.length_append, List.length_singleton]
          exact ih hkeeps
    | flush =>
      refine Tiled.cons (.flushed ls) h.awaiting rfl ?_ ?_
      all_goals rcases h.flush_cases with ⟨rfl, hflush⟩ | ⟨hls, g', hflush, hstart, hkeeps⟩
      · rw [returned, answer, hflush]
        rfl
      · obtain ⟨l, ls, rfl⟩ := List.exists_cons_of_ne_nil hls
        rw [returned, answer, hflush, ← hstart]
        rfl
      · rw [answer, hflush]
        exact ih h
      · rw [answer, hflush]
        exact ih hkeeps
    | reset => exact Tiled.cons (.discarded ls) h.awaiting rfl rfl (ih h.reset)

end Gatherer

/-! ## Sources -/

namespace Stretch

/-- A statement that is handed over begins on a line with tokens, and the number is that line's. -/
theorem begins_of_mem_returned {st : Stretch} (hsound : st.Sound) {first : Nat} {r : Request} {statement : Statement}
    (h : (r, statement) ∈ st.returned first) :
    statement.line = first ∧ statement.text = Text.unlines st.lines ∧
      ∃ line more, st.lines = line :: more ∧ Token.ofText line ≠ [] := by
  cases st with
  | complete init last =>
    obtain ⟨-, rfl⟩ := Prod.mk.inj (List.mem_singleton.mp h)
    refine ⟨rfl, rfl, ?_⟩
    cases init with
    | nil =>
      have htokens := hsound.1
      rw [Token.ofText_unlines_concat] at htokens
      exact ⟨last, [], rfl, htokens⟩
    | cons line more => exact ⟨line, more ++ [last], rfl, hsound.2.2.ofText_head_ne_nil⟩
  | flushed ls =>
    cases ls with
    | nil => cases h
    | cons line more =>
      obtain ⟨-, rfl⟩ := Prod.mk.inj (List.mem_singleton.mp h)
      exact ⟨rfl, rfl, line, more, rfl, Awaiting.ofText_head_ne_nil hsound⟩
  | discarded ls => cases h
  | blank line => cases h

theorem exists_of_mem_returnedFrom {sts : List Stretch} {first : Nat} {delivery : Request × Statement}
    (h : delivery ∈ returnedFrom first sts) :
    ∃ before st after, sts = before ++ st :: after ∧
      delivery ∈ st.returned (first + (before.flatMap lines).length) := by
  induction sts generalizing first with
  | nil => cases h
  | cons st rest ih =>
    rcases List.mem_append.mp h with h | h
    · exact ⟨[], st, rest, rfl, h⟩
    · obtain ⟨before, st', after, rfl, hmem⟩ := ih h
      refine ⟨st :: before, st', after, rfl, ?_⟩
      rw [List.flatMap_cons, List.length_append, ← Nat.add_assoc]
      exact hmem

end Stretch

/-- The line that a request feeds. -/
def Request.line? : Request → Option String
  | .feed line => some line
  | .flush | .reset => none

theorem Request.filterMap_line?_map_feed (ls : List String) : (ls.map Request.feed).filterMap Request.line? = ls := by
  rw [List.filterMap_map]
  exact List.filterMap_some

theorem Stretch.filterMap_line?_requests (st : Stretch) : st.requests.filterMap Request.line? = st.lines := by
  cases st with
  | complete init last => exact Request.filterMap_line?_map_feed _
  | flushed ls | discarded ls =>
    rw [requests, List.filterMap_append, Request.filterMap_line?_map_feed]
    exact List.append_nil ls
  | blank line => rfl

theorem Stretch.filterMap_line?_flatMap_requests (sts : List Stretch) :
    (sts.flatMap requests).filterMap Request.line? = sts.flatMap lines := by
  rw [List.filterMap_flatMap]
  exact congrArg (List.flatMap · sts) (funext filterMap_line?_requests)

namespace Gatherer

/-- The statements of some lines are returned as these are fed and the rest is flushed. -/
theorem map_snd_returned (g : Gatherer) (ls : List String) :
    (g.returned (ls.map .feed ++ [.flush])).map Prod.snd = Statement.ofLines g ls := by
  induction ls generalizing g with
  | nil =>
    rw [List.map_nil, List.nil_append, returned, answer, Statement.ofLines]
    rcases g.flush with ⟨_ | text, g'⟩ <;> rfl
  | cons line rest ih =>
    rw [List.map_cons, List.cons_append, returned, answer, Statement.ofLines]
    rcases g.feed line with ⟨_ | text, g'⟩
    · exact ih g'
    · exact congrArg (List.cons _) (ih g')

namespace Keeps

variable {g : Gatherer} {first : Nat} {kept : List String} (h : g.Keeps first kept)

include h

/-- The statements hold all tokens of the lines, in order. -/
theorem flatMap_ofText_ofLines (ls : List String) :
    (Statement.ofLines g ls).flatMap (fun statement => Token.ofText statement.text) = (kept ++ ls).flatMap Token.ofText := by
  induction ls generalizing g first kept with
  | nil =>
    rw [List.append_nil, Statement.ofLines]
    rcases h.flush_cases with ⟨rfl, hflush⟩ | ⟨-, g', hflush, -, -⟩
    · rw [hflush]
      rfl
    · rw [hflush, List.flatMap_singleton, Token.ofText_unlines]
  | cons line rest ih =>
    rw [Statement.ofLines]
    rcases h.feed_cases line with ⟨rfl, hblank, g', hfeed, hkeeps⟩ | ⟨g', hfeed, hkeeps⟩ | ⟨-, g', hfeed, -, hkeeps⟩
    · simp only [hfeed, ih hkeeps, List.nil_append, List.flatMap_cons, Token.ofText_of_isBlankText hblank]
    · simp only [hfeed, ih hkeeps, List.append_assoc, List.singleton_append]
    · simp only [hfeed, List.flatMap_cons, ih hkeeps, Token.ofText_unlines, List.flatMap_append, List.nil_append,
        List.flatMap_nil, List.append_nil, List.append_assoc]

/-- A statement is a run of lines, begins on a line with tokens and has that line's number. -/
theorem exists_of_mem_ofLines {ls : List String} {statement : Statement} (hmem : statement ∈ Statement.ofLines g ls) :
    ∃ before line more after, kept ++ ls = before ++ (line :: more) ++ after ∧ statement.line = first + before.length ∧
      statement.text = Text.unlines (line :: more) ∧ Token.ofText line ≠ [] := by
  obtain ⟨sts, rest, hsounds, hrequests, hreturned, -⟩ := h.tiled (ls.map .feed ++ [.flush])
  have hlines : kept ++ ls = sts.flatMap Stretch.lines ++ rest := by
    have hflush : [Request.flush].filterMap Request.line? = [] := rfl
    have hfed := congrArg (List.filterMap Request.line?) hrequests
    simpa only [List.filterMap_append, Request.filterMap_line?_map_feed, Stretch.filterMap_line?_flatMap_requests, hflush,
      List.append_nil] using hfed
  rw [← map_snd_returned, hreturned] at hmem
  obtain ⟨⟨r, _⟩, hreturnedFrom, rfl⟩ := List.mem_map.mp hmem
  obtain ⟨before, st, after, rfl, hst⟩ := Stretch.exists_of_mem_returnedFrom hreturnedFrom
  have hsound : st.Sound := hsounds st (List.mem_append_right _ List.mem_cons_self)
  obtain ⟨hline, htext, line, more, hst, htokens⟩ := Stretch.begins_of_mem_returned hsound hst
  refine ⟨before.flatMap Stretch.lines, line, more, after.flatMap Stretch.lines ++ rest, ?_, hline, hst ▸ htext, htokens⟩
  rw [hlines, List.flatMap_append, List.flatMap_cons, hst]
  simp only [List.append_assoc]

end Keeps

end Gatherer

namespace Statement

/-- Dropped line ends hold no tokens. -/
theorem flatMap_ofText_sourceLines (source : String) : (sourceLines source).flatMap Token.ofText = Token.ofText source := by
  have hreturn : ∀ line, Token.ofText (Text.dropFinal '\r' line) = Token.ofText line :=
    Token.ofText_dropFinal (by decide)
  rw [sourceLines, List.flatMap_map]
  simp only [hreturn]
  rw [← Token.ofText_unlines, Text.unlines_lines, Token.ofText_dropFinal Token.role_lineFeed]

theorem flatMap_ofText_ofSource (source : String) :
    (ofSource source).flatMap (fun statement => Token.ofText statement.text) = Token.ofText source := by
  rw [ofSource, Gatherer.keeps_empty.flatMap_ofText_ofLines, List.nil_append, flatMap_ofText_sourceLines]

theorem exists_of_mem_ofSource {source : String} {statement : Statement} (hmem : statement ∈ ofSource source) :
    ∃ before line more after, Text.lines source = before ++ (line :: more) ++ after ∧ statement.line = before.length + 1 ∧
      statement.text = Text.unlines ((line :: more).map (Text.dropFinal '\r')) ∧ Token.ofText line ≠ [] := by
  obtain ⟨before', line', more', after', hlines, hline, htext, htokens⟩ := Gatherer.keeps_empty.exists_of_mem_ofLines hmem
  rw [List.nil_append, sourceLines] at hlines
  -- The same cut in the lines before their ends are dropped.
  obtain ⟨init, after, hinit, hbefore, rfl⟩ := List.map_eq_append_iff.mp hlines
  obtain ⟨before, block, rfl, rfl, hblock⟩ := List.map_eq_append_iff.mp hbefore
  obtain ⟨line, more, rfl, rfl, rfl⟩ := List.map_eq_cons_iff.mp hblock
  obtain ⟨rest, hrest⟩ := Text.exists_lines_eq_append source
  refine ⟨before, line, more, after ++ rest, ?_, ?_, htext, ?_⟩
  · rw [hrest, hinit, List.append_assoc]
  · rw [hline, List.length_map, Nat.add_comm]
  · rwa [Token.ofText_dropFinal (by decide)] at htokens

end Statement

/-- **Gathering loses, repeats and moves no line.** Whatever is asked of a new gatherer, the requests are those of
stretches, one after another, and of the lines that are pending. The stretches hand over what was returned, numbered by
the lines before. So the tokens of a source are those of its statements, and each statement has the number of the line on
which it begins. -/
theorem Gatherer.accounts_for_lines :
    (∀ rs : List Request, ∃ sts : List Stretch, (∀ st ∈ sts, st.Sound) ∧
      rs = sts.flatMap Stretch.requests ++ (Gatherer.empty.after rs).pending.reverse.map .feed ∧
      Gatherer.empty.returned rs = Stretch.returnedFrom 1 sts ∧
      ((Gatherer.empty.after rs).isPending = true → Unfinished (Gatherer.empty.after rs).pending.reverse)) ∧
    ∀ source : String,
      (Statement.ofSource source).flatMap (fun statement => Token.ofText statement.text) = Token.ofText source ∧
      ∀ statement ∈ Statement.ofSource source, ∃ before line more after,
        Text.lines source = before ++ (line :: more) ++ after ∧ statement.line = before.length + 1 ∧
        statement.text = Text.unlines ((line :: more).map (Text.dropFinal '\r')) ∧ Token.ofText line ≠ [] := by
  refine ⟨fun rs => ?_, fun source => ⟨Statement.flatMap_ofText_ofSource source, fun _ => Statement.exists_of_mem_ofSource⟩⟩
  obtain ⟨sts, ls, hsounds, hrequests, hreturned, hkeeps⟩ := Gatherer.keeps_empty.tiled rs
  have hpending : (Gatherer.empty.after rs).pending.reverse = ls := by
    rw [hkeeps.pending, List.reverse_reverse]
  rw [hpending]
  exact ⟨sts, hsounds, hrequests, hreturned, fun h => hkeeps.awaiting.unfinished (hkeeps.isPending_iff.mp h)⟩

theorem Gatherer.accounts_for_lines_open_form :
    (Gatherer.empty.after [.feed "", .feed "(f"]).isPending = true ∧
    Unfinished (Gatherer.empty.after [.feed "", .feed "(f"]).pending.reverse ∧
    ⟨2, "(f\n1"⟩ ∈ Statement.ofSource "\n(f\r\n1\n" ∧
    ∃ before line more after, Text.lines "\n(f\r\n1\n" = before ++ (line :: more) ++ after ∧ 2 = before.length + 1 ∧
      "(f\n1" = Text.unlines ((line :: more).map (Text.dropFinal '\r')) ∧ Token.ofText line ≠ [] := by
  obtain ⟨sts, -, -, -, hunfinished⟩ := Gatherer.accounts_for_lines.1 [.feed "", .feed "(f"]
  have hpending : (Gatherer.empty.after [.feed "", .feed "(f"]).isPending = true := by decide +kernel
  have hmem : ⟨2, "(f\n1"⟩ ∈ Statement.ofSource "\n(f\r\n1\n" := by decide +kernel
  exact ⟨hpending, hunfinished hpending, hmem, (Gatherer.accounts_for_lines.2 "\n(f\r\n1\n").2 _ hmem⟩

end FormLang
