import RulerCompass.Proofs.Ledger.Record

/-!
# Calls on a ledger

A ledger is used by entering assertions and by asking questions, in any order.  A question leaves a
ledger looking alike, and ledgers that look alike give the same replies to all further calls.
-/

namespace RulerCompass.Ledger

/-! ### Calls -/

/-- Something that is done with a ledger. -/
inductive Call where
  | record (a : Assertion) (atStep : Int)
  | equal (r s : Relation)
  | equalDistances (d : Distance)
  | equalAngles (a : Angle)
  | rootFact (r : Relation)

/-- What a call gives back. -/
inductive Reply where
  | recorded (fact : Option Fact)
  | equal (answer : Bool)
  | distances (members : List Distance)
  | angles (members : List Angle)
  | rootFact (id : Option Int)

/-- The reply to a call and the ledger after it. -/
def answer (l : Ledger) : Call → Reply × Ledger
  | .record a atStep => ((.recorded (l.record a atStep).1), (l.record a atStep).2)
  | .equal r s => (.equal (l.equal r s).1, (l.equal r s).2)
  | .equalDistances d => (.distances (l.equalDistances d).1, (l.equalDistances d).2)
  | .equalAngles a => (.angles (l.equalAngles a).1, (l.equalAngles a).2)
  | .rootFact r => (.rootFact (l.rootFact r).1, (l.rootFact r).2)

/-- The ledger after some calls. -/
def after (l : Ledger) (calls : List Call) : Ledger := calls.foldl (fun l c => (l.answer c).2) l

/-- The replies to some calls. -/
def answers (l : Ledger) : List Call → List Reply
  | [] => []
  | c :: rest => (l.answer c).1 :: (l.answer c).2.answers rest

/-- The equation that a call asserts, whether or not it is entered. -/
def Call.equation? : Call → Option Equation
  | .record a _ => some a.equation
  | _ => none

/-- All equations that some calls assert. -/
def asserted (calls : List Call) : List Equation := calls.filterMap Call.equation?

/-- A ledger that comes about from the empty one by calls. -/
def Reached (l : Ledger) : Prop := ∃ calls, after {} calls = l

variable {l m : Ledger} {calls : List Call}

theorem after_concat (c : Call) : after l (calls ++ [c]) = ((after l calls).answer c).2 := by
  simp [after]

theorem after_append (calls' : List Call) :
    after l (calls ++ calls') = after (after l calls) calls' := by
  simp [after]

theorem reached_empty : Reached {} := ⟨[], rfl⟩

theorem Reached.after (h : l.Reached) (calls : List Call) : (after l calls).Reached := by
  obtain ⟨calls', rfl⟩ := h
  exact ⟨calls' ++ calls, after_append calls⟩

/-! ### Questions -/

section Questions

variable (hl : l.forest.WellFormed)
include hl

theorem equal_fst (r s : Relation) :
    (l.equal r s).1 = decide (l.forest.root r.key = l.forest.root s.key) := by
  rw [equal]
  split
  · rename_i h
    rw [h, decide_eq_true rfl]
  · exact Forest.connected_fst hl _ _

theorem equal_snd (r s : Relation) :
    (l.equal r s).2.forest.WellFormed ∧ Alike (l.equal r s).2 l := by
  rw [equal]
  split
  · exact ⟨hl, .refl l⟩
  · obtain ⟨h1, h2⟩ := Forest.connected_snd hl r.key s.key
    exact ⟨h1, rfl, rfl, h2⟩

theorem members_snd (r : Relation) :
    (l.members r).2.forest.WellFormed ∧ Alike (l.members r).2 l := by
  obtain ⟨h1, h2⟩ := Forest.members_snd hl r.key
  exact ⟨h1, rfl, rfl, h2⟩

theorem rootFact_fst (r : Relation) :
    (l.rootFact r).1 = (l.forest.node? (l.forest.root r.key)).bind Node.tag := by
  rw [rootFact]
  split
  · exact (Forest.compress_alike hl r.key).tag_eq _
  · rename_i h
    rw [Forest.root_of_not_holds h, Forest.node?_eq_none_iff.mpr h, Option.bind_none]

theorem rootFact_snd (r : Relation) :
    (l.rootFact r).2.forest.WellFormed ∧ Alike (l.rootFact r).2 l := by
  rw [rootFact]
  split
  · exact ⟨hl.compress _, rfl, rfl, Forest.compress_alike hl r.key⟩
  · exact ⟨hl, .refl l⟩

/-- Only what is entered changes how a ledger looks. -/
theorem answer_alike_self {c : Call} (hc : c.equation? = none) :
    (l.answer c).2.forest.WellFormed ∧ Alike (l.answer c).2 l := by
  cases c with
  | record a atStep => cases hc
  | equal r s => exact equal_snd hl r s
  | equalDistances d => exact members_snd hl (.distance d)
  | equalAngles a => exact members_snd hl (.angle a)
  | rootFact r => exact rootFact_snd hl r

theorem answer_wellFormed (c : Call) : (l.answer c).2.forest.WellFormed := by
  cases c with
  | record a atStep => exact record_wellFormed hl atStep
  | equal r s => exact (equal_snd hl r s).1
  | equalDistances d => exact (members_snd hl (.distance d)).1
  | equalAngles a => exact (members_snd hl (.angle a)).1
  | rootFact r => exact (rootFact_snd hl r).1

end Questions

/-! ### Replies of ledgers that look alike -/

section Replies

variable (hl : l.forest.WellFormed) (hm : m.forest.WellFormed) (h : Alike l m)
include hl hm h

theorem members_fst_eq (r : Relation) : (l.members r).1 = (m.members r).1 :=
  h.forest.members_eq hl hm r.key

theorem answer_fst_eq (c : Call) : (l.answer c).1 = (m.answer c).1 := by
  cases c with
  | record a atStep => rw [answer, answer, (record_alike hl atStep hm h).1]
  | equal r s => rw [answer, answer, equal_fst hl, equal_fst hm, h.forest.root, h.forest.root]
  | equalDistances d =>
    rw [answer, answer, equalDistances, equalDistances]
    simp only [members_fst_eq hl hm h]
  | equalAngles a =>
    rw [answer, answer, equalAngles, equalAngles]
    simp only [members_fst_eq hl hm h]
  | rootFact r =>
    rw [answer, answer, rootFact_fst hl, rootFact_fst hm, h.forest.root, h.forest.tag_eq]

theorem answer_snd_alike (c : Call) : Alike (l.answer c).2 (m.answer c).2 := by
  cases hc : c.equation? with
  | none =>
    exact ((answer_alike_self hl hc).2.trans h).trans (answer_alike_self hm hc).2.symm
  | some e =>
    cases c with
    | record a atStep => exact (record_alike hl atStep hm h).2
    | _ => cases hc

/-- No calls can tell the ledgers apart. -/
theorem answers_eq (calls : List Call) : l.answers calls = m.answers calls := by
  induction calls generalizing l m with
  | nil => rfl
  | cons c rest ih =>
    rw [answers, answers, answer_fst_eq hl hm h c]
    rw [ih (answer_wellFormed hl c) (answer_wellFormed hm c) (answer_snd_alike hl hm h c)]

theorem after_alike (calls : List Call) : Alike (l.after calls) (m.after calls) := by
  induction calls generalizing l m with
  | nil => exact h
  | cons c rest ih =>
    exact ih (answer_wellFormed hl c) (answer_wellFormed hm c) (answer_snd_alike hl hm h c)

end Replies

end RulerCompass.Ledger
