import Exemplar.Proofs.Text.Split
import Exemplar.Render.Markdown
import Exemplar.Text.Indent

/-!
# Blocks of code in Markdown

A block of Java code opens at a line of three backticks or more with the name of the language right after them, and
it closes at a line of at least as many backticks, which may be indented by three spaces and have more spaces at its
end. Lines end at line feeds.

The code of a sample is pasted between fences of three backticks whatever is in it. So each sample is a block of its
own as long as none of its lines closes a block by itself; the first line that does ends the block there.
-/

namespace Exemplar.Render.Markdown

def isTick (c : Char) : Bool := c = '\x60'

/-- How many backticks a line starts with. -/
def ticks (line : Text) : Nat := (line.takeWhile isTick).length

/-- The length of the fence with which a line opens a block of Java code. -/
def opening? (line : Text) : Option Nat :=
  if 3 ≤ ticks line ∧ line.dropWhile isTick = "java".toList then some (ticks line) else none

/-- Whether a line closes a block that was opened by a fence of the length. -/
def Closes (length : Nat) (line : Text) : Prop :=
  Text.indent line ≤ 3 ∧ length ≤ ticks (line.dropWhile (· == ' ')) ∧
    ((line.dropWhile (· == ' ')).dropWhile isTick).all (· == ' ')

instance decidableCloses (length : Nat) (line : Text) : Decidable (Closes length line) :=
  inferInstanceAs (Decidable (_ ∧ _ ∧ _))

/-- The lines of a block, and whether it was closed before the end of the text. -/
structure Block where
  lines : List Text
  closed : Bool
deriving DecidableEq, Repr

/-- Outside of a block, or in one that a fence of a length has opened, with its lines so far. -/
inductive Reading
  | outside
  | inside (length : Nat) (body : List Text)

def blocksFrom : Reading → List Text → List Block
  | .outside, [] => []
  | .inside _ body, [] => [⟨body, false⟩]
  | .outside, line :: rest =>
    match opening? line with
    | some length => blocksFrom (.inside length []) rest
    | none => blocksFrom .outside rest
  | .inside length body, line :: rest =>
    if Closes length line then ⟨body, true⟩ :: blocksFrom .outside rest
    else blocksFrom (.inside length (body ++ [line])) rest

/-- The blocks of code in a text. -/
def blocks (t : Text) : List Block := blocksFrom .outside (splitOn '\n' t)

/-! ### Reading lines -/

variable {lines rest : List Text} {line : Text} {length : Nat}

theorem opening?_eq_none (h : line.head? ≠ some '\x60') : opening? line = none := by
  have hticks : ticks line = 0 := by
    cases line with
    | nil => rfl
    | cons c line =>
        have hc : isTick c = false := by simpa [isTick] using h
        rw [ticks, List.takeWhile_cons_of_neg (by simp [hc]), List.length_nil]
  rw [opening?, if_neg (by simp [hticks])]

theorem blocksFrom_text (h : ∀ line ∈ lines, opening? line = none) (rest : List Text) :
    blocksFrom .outside (lines ++ rest) = blocksFrom .outside rest := by
  induction lines with
  | nil => rfl
  | cons line lines ih =>
      obtain ⟨hline, hlines⟩ := List.forall_mem_cons.mp h
      rw [List.cons_append, blocksFrom, hline]
      exact ih hlines

theorem blocksFrom_body (h : ∀ line ∈ lines, ¬Closes length line) (body rest : List Text) :
    blocksFrom (.inside length body) (lines ++ rest) = blocksFrom (.inside length (body ++ lines)) rest := by
  induction lines generalizing body with
  | nil => rw [List.append_nil, List.nil_append]
  | cons line lines ih =>
      obtain ⟨hline, hlines⟩ := List.forall_mem_cons.mp h
      rw [List.cons_append, blocksFrom, if_neg hline, ih hlines, ← List.append_cons]

/-- A block ends at the first line that closes it. -/
theorem blocksFrom_closed (h : ∀ line ∈ lines, ¬Closes length line) (hline : Closes length line)
    (rest : List Text) :
    blocksFrom (.inside length []) (lines ++ line :: rest) = ⟨lines, true⟩ :: blocksFrom .outside rest := by
  rw [blocksFrom_body h, List.nil_append, blocksFrom, if_pos hline]

/-! ### Lines of samples -/

variable {s : Retrieved} {samples others : List Retrieved}

/-- A sample whose title and description cannot be taken for code. -/
structure Headed (s : Retrieved) : Prop where
  title : '\n' ∉ s.title
  description : '\n' ∉ s.description
  no_tick : '\x60' ∉ s.description

/-- A sample none of whose lines closes a block. -/
def Enclosed (s : Retrieved) : Prop := ∀ line ∈ splitOn '\n' s.content, ¬Closes fence.length line

/-- The block that has the lines of a sample. -/
def whole (s : Retrieved) : Block := ⟨splitOn '\n' s.content, true⟩

theorem splitOn_item (h : Headed s) (rest : Text) :
    splitOn '\n' (item s ++ rest) =
      ["### ".toList ++ s.title, [], s.description, [], fence ++ "java".toList] ++
        (splitOn '\n' s.content ++ fence :: splitOn '\n' rest) := by
  have hfeeds : "\n\n".toList = ['\n', '\n'] := by decide
  have hjava : "java\n".toList = "java".toList ++ ['\n'] := by decide
  have hitem : item s ++ rest =
      ("### ".toList ++ s.title) ++ '\n' :: ([] ++ '\n' :: (s.description ++ '\n' :: ([] ++ '\n' ::
        ((fence ++ "java".toList) ++ '\n' :: (s.content ++ '\n' :: (fence ++ '\n' :: rest)))))) := by
    unfold item
    simp only [hfeeds, hjava, List.append_assoc, List.cons_append, List.nil_append]
  have htitle : '\n' ∉ "### ".toList ++ s.title := by simpa using h.title
  rw [hitem, splitOn_append, splitOn_of_not_mem htitle, splitOn_append, splitOn_append,
    splitOn_of_not_mem h.description, splitOn_append, splitOn_append,
    splitOn_of_not_mem (by decide : '\n' ∉ fence ++ "java".toList), splitOn_append, splitOn_append,
    splitOn_of_not_mem (by decide : '\n' ∉ fence)]
  rfl

/-- The lines of a rendered list are those of its first sample and of the rest, perhaps with text between them. -/
theorem exists_splitOn_render (h : Headed s) (others : List Retrieved) :
    ∃ between, (∀ line ∈ between, opening? line = none) ∧
      splitOn '\n' (render (s :: others)) =
        ["### ".toList ++ s.title, [], s.description, [], fence ++ "java".toList] ++
          (splitOn '\n' s.content ++ fence :: (between ++ splitOn '\n' (render others))) := by
  cases others with
  | nil =>
      have hrender : render [s] = item s ++ [] := by
        rw [render, List.map_singleton, Text.joinWith, List.intercalate_singleton, List.append_nil]
      refine ⟨[], by simp, ?_⟩
      rw [hrender, splitOn_item h]
      rfl
  | cons next others =>
      refine ⟨[[]], by decide, ?_⟩
      have hrender : render (s :: next :: others) = item s ++ '\n' :: render (next :: others) := by
        simp [render, Text.joinWith, List.intercalate_cons_cons]
      rw [hrender, splitOn_item h]
      rfl

/-- The lines before the code open a block. -/
theorem blocksFrom_head (h : Headed s) (rest : List Text) :
    blocksFrom .outside
        (["### ".toList ++ s.title, [], s.description, [], fence ++ "java".toList] ++ rest) =
      blocksFrom (.inside fence.length []) rest := by
  have hdescription : s.description.head? ≠ some '\x60' := fun hhead =>
    h.no_tick (List.mem_of_mem_head? hhead)
  have htext : ∀ line ∈ ["### ".toList ++ s.title, [], s.description, []], opening? line = none := by
    intro line hline
    simp only [List.mem_cons, List.not_mem_nil, or_false] at hline
    rcases hline with rfl | rfl | rfl | rfl
    · exact opening?_eq_none (by simp)
    · exact opening?_eq_none (by simp)
    · exact opening?_eq_none hdescription
    · exact opening?_eq_none (by simp)
  have hopening : opening? (fence ++ "java".toList) = some fence.length := by decide
  have hcut : ["### ".toList ++ s.title, [], s.description, [], fence ++ "java".toList] ++ rest =
      ["### ".toList ++ s.title, [], s.description, []] ++ (fence ++ "java".toList) :: rest := rfl
  rw [hcut, blocksFrom_text htext, blocksFrom, hopening]

theorem blocks_cons_of_enclosed (h : Headed s) (henclosed : Enclosed s) (others : List Retrieved) :
    blocks (render (s :: others)) = whole s :: blocks (render others) := by
  obtain ⟨between, hbetween, hlines⟩ := exists_splitOn_render h others
  rw [blocks, hlines, blocksFrom_head h, blocksFrom_closed henclosed (by decide), blocksFrom_text hbetween]
  rfl

theorem blocks_append_of_enclosed (h : ∀ s ∈ samples, Headed s ∧ Enclosed s) (others : List Retrieved) :
    blocks (render (samples ++ others)) = samples.map whole ++ blocks (render others) := by
  induction samples with
  | nil => rfl
  | cons s samples ih =>
      obtain ⟨⟨hheaded, henclosed⟩, hrest⟩ := List.forall_mem_cons.mp h
      rw [List.cons_append, blocks_cons_of_enclosed hheaded henclosed, ih hrest]
      rfl

/-- The lines of a sample before the first one that closes a block. -/
def CutAfter (s : Retrieved) (body : List Text) : Prop :=
  ∃ line later, splitOn '\n' s.content = body ++ line :: later ∧ Closes fence.length line ∧
    ∀ line ∈ body, ¬Closes fence.length line

theorem exists_cutAfter (h : ¬Enclosed s) : ∃ body, CutAfter s body := by
  have hsome : ((splitOn '\n' s.content).find? fun line => Closes fence.length line).isSome := by
    simpa [Enclosed] using h
  obtain ⟨line, hline⟩ := Option.isSome_iff_exists.mp hsome
  obtain ⟨hcloses, body, later, hcontent, hbody⟩ := List.find?_eq_some_iff_append.mp hline
  exact ⟨body, line, later, hcontent, of_decide_eq_true hcloses, fun line hline => by simpa using hbody line hline⟩

theorem CutAfter.ne_lines {body : List Text} (h : CutAfter s body) : body ≠ splitOn '\n' s.content := by
  obtain ⟨line, later, hcontent, -, -⟩ := h
  rw [hcontent]
  simp

/-- The block of a sample ends at the first line that closes it. -/
theorem exists_blocks_cons_of_cutAfter {body : List Text} (h : Headed s) (hcut : CutAfter s body)
    (others : List Retrieved) : ∃ more, blocks (render (s :: others)) = ⟨body, true⟩ :: more := by
  obtain ⟨line, later, hcontent, hline, hbody⟩ := hcut
  obtain ⟨between, -, hlines⟩ := exists_splitOn_render h others
  rw [blocks, hlines, blocksFrom_head h, hcontent, List.append_assoc, List.cons_append,
    blocksFrom_closed hbody hline]
  exact ⟨_, rfl⟩

theorem enclosed_of_blocks (h : ∀ s ∈ samples, Headed s) (hblocks : blocks (render samples) = samples.map whole) :
    ∀ s ∈ samples, Enclosed s := by
  induction samples with
  | nil => simp
  | cons s others ih =>
      obtain ⟨hs, hothers⟩ := List.forall_mem_cons.mp h
      have henclosed : Enclosed s := by
        refine Classical.byContradiction fun hopen => ?_
        obtain ⟨body, hcut⟩ := exists_cutAfter hopen
        obtain ⟨more, hmore⟩ := exists_blocks_cons_of_cutAfter hs hcut others
        rw [hmore, List.map_cons] at hblocks
        exact hcut.ne_lines (congrArg Block.lines (List.cons.inj hblocks).1)
      rw [blocks_cons_of_enclosed hs henclosed, List.map_cons] at hblocks
      exact List.forall_mem_cons.mpr ⟨henclosed, ih hothers (List.cons.inj hblocks).2⟩

/-- **Every sample is a block of its own exactly if none of its lines closes one.** The first sample with a line that
does has a block that ends there. -/
theorem blocks_render_iff (h : ∀ s ∈ samples, Headed s) :
    (blocks (render samples) = samples.map whole ↔ ∀ s ∈ samples, Enclosed s) ∧
      ∀ before s after body, samples = before ++ s :: after → (∀ s ∈ before, Enclosed s) → CutAfter s body →
        ∃ more, blocks (render samples) = before.map whole ++ ⟨body, true⟩ :: more := by
  refine ⟨⟨enclosed_of_blocks h, fun henclosed => ?_⟩, ?_⟩
  · have hall := blocks_append_of_enclosed (fun s hs => ⟨h s hs, henclosed s hs⟩) []
    rw [List.append_nil] at hall
    exact hall.trans (List.append_nil _)
  · rintro before s after body rfl hbefore hcut
    obtain ⟨hheaded, hs⟩ := List.forall_mem_append.mp h
    obtain ⟨more, hmore⟩ := exists_blocks_cons_of_cutAfter (hs s (List.mem_cons_self ..)) hcut after
    refine ⟨more, ?_⟩
    rw [blocks_append_of_enclosed fun s hs => ⟨hheaded s hs, hbefore s hs⟩, hmore]

/-- A sample of one service with some code. -/
def letterWith (content : Text) (h : content ≠ []) : Retrieved :=
  ⟨"Seal".toList, "Envelopes".toList, "Seal a letter".toList, "Seals a letter.".toList, content, by decide, by decide,
    by decide, by decide, h⟩

theorem headed_letterWith (content : Text) (h : content ≠ []) : Headed (letterWith content h) :=
  ⟨(by decide : '\n' ∉ "Seal a letter".toList), (by decide : '\n' ∉ "Seals a letter.".toList),
    (by decide : '\x60' ∉ "Seals a letter.".toList)⟩

/-- Code that comes near to closing its block: too few backticks, too many spaces before them, something after them. -/
def nearlyClosed : Text := "\x60\x60\n    \x60\x60\x60\n\x60\x60\x60java".toList

/-- Code with a line of three backticks among others. -/
def closedEarly : Text := "fold();\n  \x60\x60\x60\nseal();".toList

def letters : List Retrieved := [letterWith nearlyClosed (by decide), letterWith closedEarly (by decide)]

theorem blocks_render_iff_letters :
    (∀ s ∈ letters, Headed s) ∧ ¬(∀ s ∈ letters, Enclosed s) ∧ blocks (render letters) ≠ letters.map whole ∧
      ∃ more, blocks (render letters) =
        ⟨["\x60\x60".toList, "    \x60\x60\x60".toList, "\x60\x60\x60java".toList], true⟩ ::
          ⟨["fold();".toList], true⟩ :: more := by
  have hheaded : ∀ s ∈ letters, Headed s :=
    List.forall_mem_cons.mpr ⟨headed_letterWith _ _, List.forall_mem_singleton.mpr (headed_letterWith _ _)⟩
  have henclosed : Enclosed (letterWith nearlyClosed (by decide)) := by
    unfold Enclosed
    decide +kernel
  have hcut : CutAfter (letterWith closedEarly (by decide)) ["fold();".toList] :=
    ⟨"  \x60\x60\x60".toList, ["seal();".toList], by decide +kernel, by decide +kernel, by decide +kernel⟩
  obtain ⟨hiff, hends⟩ := blocks_render_iff hheaded
  obtain ⟨more, hmore⟩ := hends [_] _ [] _ rfl (List.forall_mem_singleton.mpr henclosed) hcut
  have hopen : ¬∀ s ∈ letters, Enclosed s := by
    intro hall
    have hline := hall (letterWith closedEarly (by decide)) (by simp [letters]) "  \x60\x60\x60".toList
      (by decide +kernel)
    exact hline (by decide +kernel)
  exact ⟨hheaded, hopen, mt hiff.mp hopen, more, hmore⟩

/-- A line of three backticks in the code of a sample ends its block. -/
theorem not_blocks_render :
    ¬∀ samples : List Retrieved, (∀ s ∈ samples, Headed s) → blocks (render samples) = samples.map whole := by
  intro h
  have hblocks := h [letterWith closedEarly (by decide)] (List.forall_mem_singleton.mpr (headed_letterWith _ _))
  exact absurd hblocks (by decide +kernel)

end Exemplar.Render.Markdown
