/-
# CatHub.Radio.Scheduler — the per-session priority queues in front of the radio.

Every submitted operation goes into the queue of its session.  `selectNext` takes the head with the
best priority across the queues, the earliest queue on a tie, so operations of one session are never
reordered.  An operation carries the address its result is answered to; the address type is a
parameter.

`pending` is the multiset view: queuing adds one operation and selecting takes one out.  `Sorted` and
`ofSession` are the view of one session, where the two add at the end and take from the front, and
`selectNext_cases` says which head it is that leaves.
-/
import CatHub.Radio.Vocabulary
import Mathlib.Data.List.Perm.Basic
import Mathlib.Data.List.Nodup

namespace CatHub.Radio

/-- Priority class for scheduling across endpoints; the earlier class wins. -/
inductive Priority where
  | ptt
  | write
  | read
  | poll
  deriving DecidableEq, Repr

def Priority.rank : Priority → Nat
  | .ptt => 0
  | .write => 1
  | .read => 2
  | .poll => 3

/-- The kind of backend operation a client session requests. -/
inductive OpKind where
  | poll
  | apply (mutation : StateMutation)
  | passthrough (raw : List UInt8)
  deriving DecidableEq, Repr

variable {ρ : Type*}

/-- A submitted operation and the address of its reply. -/
structure Operation (ρ : Type*) where
  sessionId : Nat
  priority : Priority
  kind : OpKind
  reply : ρ
  deriving DecidableEq, Repr

/-- The per-session queues, in the order in which the sessions first submitted. -/
abbrev Queues (ρ : Type*) := List (Nat × List (Operation ρ))

/-- Put an operation behind the others of its session. -/
def enqueue : Queues ρ → Operation ρ → Queues ρ
  | [], op => [(op.sessionId, [op])]
  | (id, q) :: rest, op =>
      if id = op.sessionId then (id, q ++ [op]) :: rest else (id, q) :: enqueue rest op

/-- The position and the priority of the best head, scanning from `idx` with `best` so far. -/
def bestHead : Queues ρ → Nat → Option (Nat × Priority) → Option (Nat × Priority)
  | [], _, best => best
  | (_, q) :: rest, idx, best =>
      bestHead rest (idx + 1) <|
        match q.head? with
        | some head =>
            if best.all (fun b => head.priority.rank < b.2.rank) then some (idx, head.priority)
            else best
        | none => best

/-- Take the front operation of the queue at a position. -/
def popFront : Queues ρ → Nat → Option (Operation ρ × Queues ρ)
  | [], _ => none
  | (_, []) :: _, 0 => none
  | (id, op :: q) :: rest, 0 => some (op, (id, q) :: rest)
  | entry :: rest, idx + 1 => (popFront rest idx).map (fun r => (r.1, entry :: r.2))

/-- Pick the highest-priority ready head across all per-session queues. -/
def selectNext (queues : Queues ρ) : Option (Operation ρ × Queues ρ) :=
  (bestHead queues 0 none).bind (fun best => popFront queues best.1)

/-- All queued operations. -/
def pending (queues : Queues ρ) : List (Operation ρ) := queues.flatMap Prod.snd

theorem pending_cons (id : Nat) (q : List (Operation ρ)) (rest : Queues ρ) :
    pending ((id, q) :: rest) = q ++ pending rest := rfl

theorem pending_enqueue (queues : Queues ρ) (op : Operation ρ) :
    (pending (enqueue queues op)).Perm (op :: pending queues) := by
  induction queues with
  | nil => exact .refl _
  | cons entry rest ih =>
      obtain ⟨id, q⟩ := entry
      unfold enqueue
      split
      · rw [pending_cons, pending_cons, List.append_assoc]
        exact List.perm_middle
      · rw [pending_cons, pending_cons]
        exact (ih.append_left q).trans List.perm_middle

theorem pending_foldl_enqueue (ops : List (Operation ρ)) (queues : Queues ρ) :
    (pending (ops.foldl enqueue queues)).Perm (ops ++ pending queues) := by
  induction ops generalizing queues with
  | nil => exact .refl _
  | cons op ops ih =>
      rw [List.foldl_cons]
      refine (ih (enqueue queues op)).trans ?_
      exact ((pending_enqueue queues op).append_left ops).trans List.perm_middle

theorem pending_popFront {queues queues' : Queues ρ} {idx : Nat} {op : Operation ρ}
    (h : popFront queues idx = some (op, queues')) :
    (pending queues).Perm (op :: pending queues') := by
  induction queues generalizing idx queues' with
  | nil => cases h
  | cons entry rest ih =>
      obtain ⟨id, q⟩ := entry
      cases idx with
      | zero =>
          cases q with
          | nil => cases h
          | cons head q =>
              simp only [popFront, Option.some.injEq, Prod.mk.injEq] at h
              obtain ⟨rfl, rfl⟩ := h
              exact .refl _
      | succ idx =>
          simp only [popFront, Option.map_eq_some_iff] at h
          obtain ⟨⟨op', rest'⟩, taken, same⟩ := h
          cases same
          rw [pending_cons, pending_cons]
          exact ((ih taken).append_left q).trans List.perm_middle

theorem pending_selectNext {queues queues' : Queues ρ} {op : Operation ρ}
    (h : selectNext queues = some (op, queues')) :
    (pending queues).Perm (op :: pending queues') := by
  obtain ⟨best, _, taken⟩ := Option.bind_eq_some_iff.mp h
  exact pending_popFront taken

/-! ## One session -/

/-- The queues as `enqueue` makes them: one for each session, with its operations only. -/
structure Sorted (queues : Queues ρ) : Prop where
  distinct : (queues.map Prod.fst).Nodup
  own : ∀ entry ∈ queues, ∀ op ∈ entry.2, op.sessionId = entry.1

/-- The operations of one session. -/
def ofSession (id : Nat) (ops : List (Operation ρ)) : List (Operation ρ) :=
  ops.filter (fun op => op.sessionId == id)

@[simp] theorem ofSession_append (id : Nat) (ops more : List (Operation ρ)) :
    ofSession id (ops ++ more) = ofSession id ops ++ ofSession id more :=
  List.filter_append ops more

@[simp] theorem ofSession_nil (id : Nat) : ofSession id ([] : List (Operation ρ)) = [] := rfl

theorem ofSession_all {id : Nat} {ops : List (Operation ρ)}
    (own : ∀ op ∈ ops, op.sessionId = id) : ofSession id ops = ops :=
  List.filter_eq_self.mpr (fun op mem => beq_iff_eq.mpr (own op mem))

theorem ofSession_none {id : Nat} {ops : List (Operation ρ)}
    (other : ∀ op ∈ ops, op.sessionId ≠ id) : ofSession id ops = [] :=
  List.filter_eq_nil_iff.mpr (fun op mem same => other op mem (beq_iff_eq.mp same))

theorem sorted_nil : Sorted ([] : Queues ρ) := ⟨List.nodup_nil, fun _ mem => nomatch mem⟩

theorem pending_append (front back : Queues ρ) :
    pending (front ++ back) = pending front ++ pending back := List.flatMap_append

/-- Nothing of a session is queued under the ids of others. -/
theorem ofSession_pending_none {id : Nat} {queues : Queues ρ}
    (own : ∀ entry ∈ queues, ∀ op ∈ entry.2, op.sessionId = entry.1)
    (absent : id ∉ queues.map Prod.fst) : ofSession id (pending queues) = [] := by
  apply ofSession_none
  intro op mem same
  obtain ⟨entry, among, here⟩ := List.mem_flatMap.mp mem
  exact absent (List.mem_map.mpr ⟨entry, among, (own entry among op here).symm.trans same⟩)

/-- An operation goes behind those of its session, or begins a queue at the end. -/
theorem enqueue_cases (queues : Queues ρ) (op : Operation ρ) :
    (∃ front q back, queues = front ++ (op.sessionId, q) :: back ∧
      enqueue queues op = front ++ (op.sessionId, q ++ [op]) :: back) ∨
    (op.sessionId ∉ queues.map Prod.fst ∧
      enqueue queues op = queues ++ [(op.sessionId, [op])]) := by
  induction queues with
  | nil => exact .inr ⟨List.not_mem_nil, rfl⟩
  | cons entry rest ih =>
      obtain ⟨id, q⟩ := entry
      unfold enqueue
      by_cases same : id = op.sessionId
      · subst same
        rw [if_pos rfl]
        exact .inl ⟨[], q, rest, rfl, rfl⟩
      · rw [if_neg same]
        rcases ih with ⟨front, q', back, rfl, goes⟩ | ⟨new, goes⟩
        · exact .inl ⟨(id, q) :: front, q', back, rfl, by rw [goes]; rfl⟩
        · refine .inr ⟨?_, by rw [goes]; rfl⟩
          rw [List.map_cons, List.mem_cons, not_or]
          exact ⟨Ne.symm same, new⟩

namespace Sorted

variable {queues : Queues ρ}

/-- What is queued of a session is its queue. -/
theorem pending_session (sorted : Sorted queues) {front back : Queues ρ} {id : Nat}
    {q : List (Operation ρ)} (form : queues = front ++ (id, q) :: back) :
    ofSession id (pending queues) = q := by
  obtain ⟨distinct, own⟩ := sorted
  subst form
  rw [List.map_append, List.map_cons] at distinct
  obtain ⟨-, rest, apart⟩ := List.nodup_append.mp distinct
  have front_ : id ∉ front.map Prod.fst := fun mem => apart id mem id List.mem_cons_self rfl
  have back_ : id ∉ back.map Prod.fst := (List.nodup_cons.mp rest).1
  have ownFront : ∀ entry ∈ front, ∀ op ∈ entry.2, op.sessionId = entry.1 :=
    fun entry mem => own entry (List.mem_append_left _ mem)
  have ownBack : ∀ entry ∈ back, ∀ op ∈ entry.2, op.sessionId = entry.1 :=
    fun entry mem => own entry (List.mem_append_right _ (List.mem_cons_of_mem _ mem))
  have here : ∀ op ∈ q, op.sessionId = id :=
    own (id, q) (List.mem_append_right _ List.mem_cons_self)
  rw [pending_append, pending_cons, ofSession_append, ofSession_append,
    ofSession_pending_none ownFront front_, ofSession_pending_none ownBack back_,
    ofSession_all here, List.nil_append, List.append_nil]

/-- Queuing keeps the queues sorted, and puts the operation behind those of its session. -/
theorem enqueue (sorted : Sorted queues) (op : Operation ρ) :
    Sorted (enqueue queues op) ∧ ∀ id, ofSession id (pending (Radio.enqueue queues op)) =
      ofSession id (pending queues) ++ ofSession id [op] := by
  rcases enqueue_cases queues op with ⟨front, q, back, rfl, goes⟩ | ⟨new, goes⟩
  · have sorted' : Sorted (front ++ (op.sessionId, q ++ [op]) :: back) := by
      refine ⟨by simpa using sorted.distinct, fun entry mem => ?_⟩
      rcases List.mem_append.mp mem with before | mem
      · exact sorted.own entry (List.mem_append_left _ before)
      · rcases List.mem_cons.mp mem with rfl | after
        · intro o mem
          rcases List.mem_append.mp mem with mem | last
          · exact sorted.own (op.sessionId, q) (by simp) o mem
          · rw [List.mem_singleton.mp last]
        · exact sorted.own entry (by simp [after])
    rw [goes]
    refine ⟨sorted', fun id => ?_⟩
    by_cases here : id = op.sessionId
    · subst here
      rw [sorted'.pending_session rfl, sorted.pending_session rfl,
        ofSession_all (fun o mem => by rw [List.mem_singleton.mp mem])]
    · have other : ofSession id [op] = [] :=
        ofSession_none (fun o mem => by rw [List.mem_singleton.mp mem]; exact Ne.symm here)
      simp only [pending_append, pending_cons, ofSession_append, other, List.append_nil]
  · rw [goes]
    refine ⟨⟨?_, fun entry mem => ?_⟩, fun id => ?_⟩
    · rw [List.map_append, List.map_singleton]
      exact List.nodup_append.mpr ⟨sorted.distinct, List.nodup_singleton _, fun id mem other last =>
        fun same => new (by rwa [same, List.mem_singleton.mp last] at mem)⟩
    · rcases List.mem_append.mp mem with old | last
      · exact sorted.own entry old
      · rw [List.mem_singleton.mp last]
        exact fun o mem => by rw [List.mem_singleton.mp mem]
    · rw [pending_append, ofSession_append]
      rfl

end Sorted

/-! ## Selection -/

/-- The operations that are ready, one for each session that waits. -/
def heads (queues : Queues ρ) : List (Operation ρ) := queues.filterMap (fun entry => entry.2.head?)

theorem heads_append (front back : Queues ρ) :
    heads (front ++ back) = heads front ++ heads back := List.filterMap_append

theorem heads_cons (id : Nat) (op : Operation ρ) (q : List (Operation ρ)) (rest : Queues ρ) :
    heads ((id, op :: q) :: rest) = op :: heads rest := rfl

/-- Heads are what is pending first. -/
theorem heads_eq_nil {queues : Queues ρ} : heads queues = [] ↔ pending queues = [] := by
  induction queues with
  | nil => exact Iff.rfl
  | cons entry rest ih =>
      obtain ⟨id, _ | ⟨op, q⟩⟩ := entry
      · exact ih
      · rw [heads_cons, pending_cons, List.cons_append]
        exact ⟨fun absurd => (nomatch absurd), fun absurd => (nomatch absurd)⟩

/-- The queue with the operation at its head stands where it says, in front of the queues whose heads
are no more urgent, and behind those whose heads are less so. -/
structure Best (queues : Queues ρ) (front : Queues ρ) (id : Nat) (op : Operation ρ)
    (q : List (Operation ρ)) (back : Queues ρ) : Prop where
  form : queues = front ++ (id, op :: q) :: back
  before : ∀ head ∈ heads front, op.priority.rank < head.priority.rank
  after : ∀ head ∈ heads back, op.priority.rank ≤ head.priority.rank

/-- What a scan that has found `best` so far ends with. -/
theorem bestHead_cases (queues : Queues ρ) (idx : Nat) (best : Option (Nat × Priority)) :
    (bestHead queues idx best = best ∧
      ∀ head ∈ heads queues, ∃ b ∈ best, b.2.rank ≤ head.priority.rank) ∨
    ∃ front id op q back, Best queues front id op q back ∧
      bestHead queues idx best = some (idx + front.length, op.priority) ∧
      ∀ b ∈ best, op.priority.rank < b.2.rank := by
  induction queues generalizing idx best with
  | nil => exact .inl ⟨rfl, fun head mem => nomatch mem⟩
  | cons entry rest ih =>
      obtain ⟨id, _ | ⟨head, q⟩⟩ := entry
      · -- an empty queue is passed over
        rcases ih (idx + 1) best with ⟨same, least⟩ | ⟨front, id', op, q', back, stands, found, better⟩
        · exact .inl ⟨same, least⟩
        · refine .inr ⟨(id, []) :: front, id', op, q', back,
            ⟨by rw [stands.form]; rfl, stands.before, stands.after⟩, ?_, better⟩
          rw [List.length_cons, ← Nat.add_assoc, Nat.add_right_comm]
          exact found
      · by_cases wins : best.all (fun b => head.priority.rank < b.2.rank) = true
        · have scan : bestHead ((id, head :: q) :: rest) idx best =
              bestHead rest (idx + 1) (some (idx, head.priority)) := by
            show bestHead rest (idx + 1) (if _ then _ else _) = _
            rw [if_pos wins]
          have better : ∀ b ∈ best, head.priority.rank < b.2.rank := by
            rintro b rfl
            simpa using wins
          rw [scan]
          rcases ih (idx + 1) (some (idx, head.priority)) with
            ⟨same, least⟩ | ⟨front, id', op, q', back, stands, found, beats⟩
          · refine .inr ⟨[], id, head, q, rest, ⟨rfl, fun head mem => (nomatch mem), fun other mem => ?_⟩,
              same, better⟩
            obtain ⟨b, here, le⟩ := least other mem
            obtain rfl := Option.some.inj here
            exact le
          · have lower : op.priority.rank < head.priority.rank := beats _ rfl
            refine .inr ⟨(id, head :: q) :: front, id', op, q', back,
              ⟨by rw [stands.form]; rfl, List.forall_mem_cons.mpr ⟨lower, stands.before⟩,
                stands.after⟩, ?_, fun b mem => Nat.lt_trans lower (better b mem)⟩
            rw [found, List.length_cons, ← Nat.add_assoc, Nat.add_right_comm]
        · have scan : bestHead ((id, head :: q) :: rest) idx best = bestHead rest (idx + 1) best := by
            show bestHead rest (idx + 1) (if _ then _ else _) = _
            rw [if_neg wins]
          obtain ⟨b, rfl, worse⟩ : ∃ b, best = some b ∧ b.2.rank ≤ head.priority.rank := by
            cases best with
            | none => exact absurd rfl wins
            | some b => exact ⟨b, rfl, by simpa using wins⟩
          rw [scan]
          rcases ih (idx + 1) (some b) with
            ⟨same, least⟩ | ⟨front, id', op, q', back, stands, found, beats⟩
          · exact .inl ⟨same, List.forall_mem_cons.mpr ⟨⟨b, rfl, worse⟩, least⟩⟩
          · have lower : op.priority.rank < b.2.rank := beats b rfl
            refine .inr ⟨(id, head :: q) :: front, id', op, q', back,
              ⟨by rw [stands.form]; rfl, List.forall_mem_cons.mpr
                ⟨Nat.lt_of_lt_of_le lower worse, stands.before⟩, stands.after⟩, ?_, beats⟩
            rw [found, List.length_cons, ← Nat.add_assoc, Nat.add_right_comm]

theorem popFront_append (front : Queues ρ) (id : Nat) (op : Operation ρ) (q : List (Operation ρ))
    (back : Queues ρ) :
    popFront (front ++ (id, op :: q) :: back) front.length = some (op, front ++ (id, q) :: back) := by
  induction front with
  | nil => rfl
  | cons entry front ih =>
      obtain ⟨id', _ | ⟨head, q'⟩⟩ := entry <;>
        exact congrArg (Option.map (fun r => (r.1, _ :: r.2))) ih

/-- **Selection.**  Nothing is selected where nothing waits; otherwise the first of the most urgent heads
leaves its queue. -/
theorem selectNext_cases (queues : Queues ρ) :
    (selectNext queues = none ∧ pending queues = []) ∨
    ∃ front id op q back, Best queues front id op q back ∧
      selectNext queues = some (op, front ++ (id, q) :: back) := by
  rcases bestHead_cases queues 0 none with ⟨nothing, least⟩ | ⟨front, id, op, q, back, stands, found, -⟩
  · refine .inl ⟨by rw [selectNext, nothing]; rfl, heads_eq_nil.mp ?_⟩
    rw [List.eq_nil_iff_forall_not_mem]
    intro head mem
    obtain ⟨b, absurd, -⟩ := least head mem
    cases absurd
  · refine .inr ⟨front, id, op, q, back, stands, ?_⟩
    rw [selectNext, found, Option.bind_some, Nat.zero_add, stands.form]
    exact popFront_append front id op q back

/-- The selected operation is a head, and no head is more urgent. -/
theorem Best.least {queues front back : Queues ρ} {id : Nat} {op : Operation ρ}
    {q : List (Operation ρ)} (stands : Best queues front id op q back) :
    op ∈ heads queues ∧ ∀ head ∈ heads queues, op.priority.rank ≤ head.priority.rank := by
  rw [stands.form, heads_append, heads_cons]
  refine ⟨by simp, fun head mem => ?_⟩
  rcases List.mem_append.mp mem with front | mem
  · exact Nat.le_of_lt (stands.before head front)
  · rcases List.mem_cons.mp mem with rfl | back
    · exact Nat.le_refl _
    · exact stands.after head back

/-- Selecting keeps the queues sorted, and takes the first operation of one session. -/
theorem Sorted.selected {queues front back : Queues ρ} {id : Nat} {op : Operation ρ}
    {q : List (Operation ρ)} (sorted : Sorted queues) (stands : Best queues front id op q back) :
    Sorted (front ++ (id, q) :: back) ∧ ∀ session, ofSession session (pending queues) =
      ofSession session [op] ++ ofSession session (pending (front ++ (id, q) :: back)) := by
  obtain ⟨form, -, -⟩ := stands
  subst form
  have sorted' : Sorted (front ++ (id, q) :: back) := by
    refine ⟨by simpa using sorted.distinct, fun entry mem => ?_⟩
    rcases List.mem_append.mp mem with before | mem
    · exact sorted.own entry (List.mem_append_left _ before)
    · rcases List.mem_cons.mp mem with rfl | after
      · exact fun o mem => sorted.own (id, op :: q) (by simp) o (List.mem_cons_of_mem _ mem)
      · exact sorted.own entry (by simp [after])
  have here : op.sessionId = id := sorted.own (id, op :: q) (by simp) op List.mem_cons_self
  refine ⟨sorted', fun session => ?_⟩
  by_cases this : session = id
  · subst this
    rw [sorted'.pending_session rfl, sorted.pending_session rfl,
      ofSession_all (fun o mem => by rw [List.mem_singleton.mp mem, here])]
    rfl
  · have other : ofSession session [op] = [] :=
      ofSession_none (fun o mem => by rw [List.mem_singleton.mp mem, here]; exact Ne.symm this)
    have rest : ofSession session (op :: q) = ofSession session q := by
      rw [← List.singleton_append, ofSession_append, other, List.nil_append]
    simp only [pending_append, pending_cons, ofSession_append, rest, other, List.nil_append]

end CatHub.Radio
