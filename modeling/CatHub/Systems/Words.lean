/-
# CatHub.Systems.Words — the words of a text and the frames of a stream.

`words` cuts a list at its separators and keeps the pieces that are not empty.  `Framer` gathers a
stream element by element: a frame ends with the delimiter, and what has grown to a bound without one
is thrown away.  Both are stated for lists of anything.

`segments` is what a stream is cut into at its delimiters.  A framer hands out one frame for each of
them, the segment itself where it is within the bound and an end of it otherwise (`Whole.frames`).
-/
import Mathlib.Data.List.Forall2

namespace CatHub.Systems

variable {α : Type}

/-- A table is checked entry by entry. -/
theorem each_of_all {p : α → Prop} [DecidablePred p] {table : List α}
    (checked : (table.all fun a => decide (p a)) = true) : ∀ a ∈ table, p a :=
  fun a mem => of_decide_eq_true (List.all_eq_true.mp checked a mem)

/-! ## Words -/

/-- The pieces between separators that are not empty. -/
def words (separates : α → Bool) (text : List α) : List (List α) :=
  (text.splitOnP separates).filter (fun word => !word.isEmpty)

variable {separates : α → Bool}

@[simp] theorem words_nil : words separates [] = [] := rfl

theorem words_append {c : α} (sep : separates c = true) (front back : List α) :
    words separates (front ++ c :: back) = words separates front ++ words separates back := by
  rw [words, List.splitOnP_append_cons front back sep, List.filter_append]
  rfl

/-- A text without separators is one word. -/
theorem words_solid {word : List α} (some_ : word ≠ [])
    (solid : ∀ c ∈ word, separates c = false) : words separates word = [word] := by
  rw [words, List.splitOnP_eq_singleton solid]
  simp [some_]

theorem words_first {c : α} {word : List α} (sep : separates c = true) (some_ : word ≠ [])
    (solid : ∀ c ∈ word, separates c = false) (back : List α) :
    words separates (word ++ c :: back) = word :: words separates back := by
  rw [words_append sep, words_solid some_ solid, List.singleton_append]

/-- No piece between separators holds one. -/
theorem solid_of_mem_splitOnP {text piece : List α} (mem : piece ∈ text.splitOnP separates) :
    ∀ c ∈ piece, separates c = false := by
  induction text generalizing piece with
  | nil =>
      rw [List.splitOnP_nil, List.mem_singleton] at mem
      simp [mem]
  | cons c text ih =>
      rw [List.splitOnP_cons_eq_if_modifyHead] at mem
      split at mem
      · rcases List.mem_cons.mp mem with rfl | later
        · simp
        · exact ih later
      · rename_i solid
        cases pieces : text.splitOnP separates with
        | nil => exact absurd pieces (List.splitOnP_ne_nil _ _)
        | cons first rest =>
            rw [pieces] at mem ih
            rcases List.mem_cons.mp mem with rfl | later
            · exact List.forall_mem_cons.mpr
                ⟨Bool.eq_false_iff.mpr solid, ih List.mem_cons_self⟩
            · exact ih (List.mem_cons_of_mem _ later)

theorem solid_of_mem_words {text word : List α} (mem : word ∈ words separates text) :
    ∀ c ∈ word, separates c = false := solid_of_mem_splitOnP (List.mem_filter.mp mem).1

/-! ## Frames -/

/-- The unfinished frame, with a bound on how long it may grow. -/
structure Framer (α : Type) where
  limit : Nat
  buf : List α := []

namespace Framer

variable [DecidableEq α]

/-- Take one element: a frame is complete with the delimiter, and a partial frame at the bound is
dropped first. -/
def push (framer : Framer α) (delim element : α) : Framer α × Option (List α) :=
  let buf := if framer.limit ≤ framer.buf.length then [] else framer.buf
  if element = delim then ({ framer with buf := [] }, some (buf ++ [element]))
  else ({ framer with buf := buf ++ [element] }, none)

/-- The frames of a stream, in order. -/
def frames (delim : α) : Framer α → List α → List (List α)
  | _, [] => []
  | framer, element :: stream =>
      let (framer, frame) := framer.push delim element
      frame.toList ++ frames delim framer stream

/-- The unfinished frame never holds the delimiter. -/
def Open (framer : Framer α) (delim : α) : Prop := delim ∉ framer.buf

theorem open_push {framer : Framer α} {delim element : α} (h : framer.Open delim) :
    (framer.push delim element).1.Open delim ∧
      ∀ frame ∈ (framer.push delim element).2, ∃ body, delim ∉ body ∧ frame = body ++ [delim] := by
  unfold push
  set buf := if framer.limit ≤ framer.buf.length then [] else framer.buf with isBuf
  have partial_ : delim ∉ buf := by
    rw [isBuf]
    split
    · simp
    · exact h
  split
  · rename_i ends
    refine ⟨List.not_mem_nil, ?_⟩
    rintro frame ⟨⟩
    exact ⟨buf, partial_, by rw [ends]⟩
  · rename_i goesOn
    refine ⟨?_, by simp⟩
    simpa [Open, partial_] using fun same => goesOn same.symm

/-- Every frame ends with its only delimiter. -/
theorem frames_closed {delim : α} {stream frame : List α} {framer : Framer α}
    (start : framer.Open delim) (mem : frame ∈ frames delim framer stream) :
    ∃ body, delim ∉ body ∧ frame = body ++ [delim] := by
  induction stream generalizing framer with
  | nil => cases mem
  | cons element stream ih =>
      obtain ⟨kept, closed⟩ := @open_push _ _ framer delim element start
      rcases List.mem_append.mp mem with now | later
      · exact closed frame (Option.mem_toList.mp now)
      · exact ih kept later

/-- What fits is kept, as long as no delimiter comes. -/
theorem frames_fits {delim : α} {limit : Nat} {more buf : List α} (open_ : delim ∉ more)
    (fits : buf.length + more.length ≤ limit) (later : List α) :
    frames delim { limit, buf } (more ++ later) = frames delim { limit, buf := buf ++ more } later := by
  induction more generalizing buf with
  | nil => rw [List.append_nil, List.nil_append]
  | cons element more ih =>
      rw [List.mem_cons, not_or] at open_
      rw [List.length_cons] at fits
      have room : ¬ limit ≤ buf.length := by omega
      have pushed : ({ limit, buf } : Framer α).push delim element =
          ({ limit, buf := buf ++ [element] }, none) := by
        rw [push, if_neg (fun same => open_.1 same.symm), if_neg room]
      have size : (buf ++ [element]).length + more.length ≤ limit := by
        rw [List.length_append, List.length_singleton]
        omega
      rw [List.cons_append, frames, pushed]
      show frames delim { limit, buf := buf ++ [element] } (more ++ later) = _
      rw [ih open_.2 size, List.append_assoc, List.singleton_append]

/-! ### At once or as it comes -/

/-- The frames of a stream and the framer after it. -/
def feed (delim : α) (framer : Framer α) (stream : List α) : Framer α × List (List α) :=
  (stream.foldl (fun framer element => (framer.push delim element).1) framer,
    frames delim framer stream)

theorem feed_append (delim : α) (framer : Framer α) (front back : List α) :
    framer.feed delim (front ++ back) =
      (((framer.feed delim front).1.feed delim back).1,
        (framer.feed delim front).2 ++ ((framer.feed delim front).1.feed delim back).2) := by
  refine Prod.ext List.foldl_append ?_
  induction front generalizing framer with
  | nil => rfl
  | cons element front ih =>
      show _ ++ frames delim _ (front ++ back) = (_ ++ frames delim _ front) ++ _
      rw [List.append_assoc]
      exact congrArg (_ ++ ·) (ih (framer.push delim element).1)

/-- The frames of chunks that are taken one after the other. -/
def feedAll (delim : α) (framer : Framer α) : List (List α) → Framer α × List (List α)
  | [] => (framer, [])
  | chunk :: chunks =>
      let (framer, frames) := framer.feed delim chunk
      let (framer, later) := feedAll delim framer chunks
      (framer, frames ++ later)

/-- The cutting does not show. -/
theorem feedAll_eq (delim : α) (framer : Framer α) (chunks : List (List α)) :
    framer.feedAll delim chunks = framer.feed delim chunks.flatten := by
  induction chunks generalizing framer with
  | nil => rfl
  | cons chunk chunks ih =>
      rw [List.flatten_cons, feed_append, feedAll]
      simp only [ih]

/-! ### Segments -/

/-- The pieces of a stream up to its last delimiter, each with the delimiter that ends it. -/
def segments (delim : α) (stream : List α) : List (List α) :=
  (stream.splitOnP (· == delim)).dropLast.map (· ++ [delim])

theorem segments_open {delim : α} {part : List α} (open_ : delim ∉ part) :
    segments delim part = [] := by
  have none_ : ∀ x ∈ part, (x == delim) = false := by
    intro x mem
    rw [beq_eq_false_iff_ne]
    rintro rfl
    exact open_ mem
  rw [segments, List.splitOnP_eq_singleton none_]
  rfl

theorem segments_cons {delim : α} {part : List α} (open_ : delim ∉ part) (later : List α) :
    segments delim (part ++ delim :: later) = (part ++ [delim]) :: segments delim later := by
  have none_ : ∀ x ∈ part, (x == delim) = false := by
    intro x mem
    rw [beq_eq_false_iff_ne]
    rintro rfl
    exact open_ mem
  rw [segments, List.splitOnP_append_cons part later (by simp), List.splitOnP_eq_singleton none_,
    List.singleton_append, List.dropLast_cons_of_ne_nil (List.splitOnP_ne_nil _ _), List.map_cons]
  rfl

/-- What a framer makes of a piece of the stream: the piece itself where it is within the bound, and
otherwise an end of it. -/
structure Whole (limit : Nat) (kept piece : List α) : Prop where
  suffix : kept <:+ piece
  eq : piece.length ≤ limit → kept = piece

omit [DecidableEq α] in
/-- One element more of a piece. -/
theorem Whole.next {framer : Framer α} {part : List α} (whole : Whole framer.limit framer.buf part)
    (element : α) :
    Whole framer.limit ((if framer.limit ≤ framer.buf.length then [] else framer.buf) ++ [element])
      (part ++ [element]) := by
  constructor
  · split
    · exact List.suffix_append part [element]
    · obtain ⟨lost, same⟩ := whole.suffix
      exact ⟨lost, by rw [← List.append_assoc, same]⟩
  · intro short
    rw [List.length_append, List.length_singleton] at short
    rw [whole.eq (Nat.le_of_succ_le short), if_neg (Nat.not_le.mpr short)]

omit [DecidableEq α] in
theorem Whole.all {limit : Nat} {kept pieces : List (List α)}
    (each : List.Forall₂ (Whole limit) kept pieces) (short : ∀ piece ∈ pieces, piece.length ≤ limit) :
    kept = pieces := by
  induction each with
  | nil => rfl
  | cons whole _ ih =>
      obtain ⟨here, later⟩ := List.forall_mem_cons.mp short
      rw [whole.eq here, ih later]

/-- A framer hands out one frame for each segment. -/
theorem Whole.frames {delim : α} {framer : Framer α} {part : List α}
    (whole : Whole framer.limit framer.buf part) (open_ : delim ∉ part) (stream : List α) :
    List.Forall₂ (Whole framer.limit) (Framer.frames delim framer stream)
      (segments delim (part ++ stream)) := by
  induction stream generalizing framer part with
  | nil =>
      rw [List.append_nil, segments_open open_]
      exact .nil
  | cons element stream ih =>
      have here := whole.next element
      by_cases ends : element = delim
      · subst ends
        have pushed : framer.push element element = ({ framer with buf := [] }, some _) := if_pos rfl
        have fresh : Whole framer.limit ([] : List α) [] := ⟨List.suffix_rfl, fun _ => rfl⟩
        rw [segments_cons open_, Framer.frames, pushed]
        exact .cons here (@ih { framer with buf := [] } [] fresh List.not_mem_nil)
      · have pushed : framer.push delim element = ({ framer with buf := _ }, none) := if_neg ends
        have goesOn : delim ∉ part ++ [element] := by
          rw [List.mem_append, List.mem_singleton, not_or]
          exact ⟨open_, fun same => ends same.symm⟩
        have cut : part ++ element :: stream = (part ++ [element]) ++ stream := by simp
        rw [cut, Framer.frames, pushed]
        exact @ih { framer with
          buf := (if framer.limit ≤ framer.buf.length then [] else framer.buf) ++ [element] } _ here goesOn

/-- Starting anew, a framer hands out the segments that are within the bound, and nothing else, if and
only if no segment is beyond it. -/
theorem frames_eq_iff (limit : Nat) (delim : α) (stream : List α) :
    frames delim { limit } stream = (segments delim stream).filter (·.length ≤ limit) ↔
      ∀ segment ∈ segments delim stream, segment.length ≤ limit := by
  have each : List.Forall₂ (Whole limit) (frames delim { limit } stream) (segments delim stream) :=
    @Whole.frames α _ delim { limit } [] ⟨List.suffix_rfl, fun _ => rfl⟩ List.not_mem_nil stream
  constructor
  · intro same
    have count := each.length_eq
    rw [same] at count
    simpa using List.length_filter_eq_length_iff.mp count
  · intro short
    have all : (segments delim stream).filter (·.length ≤ limit) = segments delim stream :=
      List.filter_eq_self.mpr (by simpa using short)
    rw [all]
    exact Whole.all each short

end Framer

end CatHub.Systems
