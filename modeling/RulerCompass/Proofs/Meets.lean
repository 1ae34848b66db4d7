import RulerCompass.Run

/-!
# A small logic for results

`Meets p e Q` says that `e` gives a result if `p` holds, and that every result satisfies `Q`.  So one
walk through a program shows both when it cannot fail and what it keeps if it does not fail.  The
rules follow the forms of programs: results and faults, sequencing, and loops with an invariant.
-/

namespace RulerCompass

variable {α β : Type}

/-- There is a result if `p` holds, and every result satisfies `Q`. -/
def Meets (p : Prop) (e : Except Fault α) (Q : α → Prop) : Prop :=
  (p → ∃ a, e = .ok a) ∧ ∀ a, e = .ok a → Q a

variable {p p' : Prop} {e : Except Fault α} {f : α → Except Fault β} {P Q : α → Prop}
  {R : β → Prop}

theorem meets_ok {a : α} (h : Q a) : Meets p (.ok a) Q :=
  ⟨fun _ => ⟨a, rfl⟩, fun _ hb => by cases hb; exact h⟩

theorem meets_ok_true {a : α} : Meets p (.ok a) fun _ => True := meets_ok trivial

theorem meets_error {fault : Fault} (h : ¬ p) : Meets p (.error fault) Q :=
  ⟨fun hp => absurd hp h, fun _ hb => nomatch hb⟩

namespace Meets

theorem mono (h : Meets p e P) (hQ : ∀ a, P a → Q a) : Meets p e Q :=
  ⟨h.1, fun a ha => hQ a (h.2 a ha)⟩

theorem imp (h : Meets p e Q) (hp : p' → p) : Meets p' e Q := ⟨fun hp' => h.1 (hp hp'), h.2⟩

theorem of_ok (h : p → ∃ a, e = .ok a) : Meets p e fun _ => True := ⟨h, fun _ _ => trivial⟩

/-- A result is known together with the program that gave it. -/
theorem with_eq (h : Meets p e Q) : Meets p e fun a => e = .ok a ∧ Q a :=
  ⟨h.1, fun a ha => ⟨ha, h.2 a ha⟩⟩

/-- **Sequencing.**  The second part may use what the first part promises. -/
theorem bind (h : Meets p e P) (hf : ∀ a, P a → Meets p (f a) R) : Meets p (e >>= f) R := by
  cases e with
  | error fault =>
    refine meets_error fun hp => ?_
    obtain ⟨a, ha⟩ := h.1 hp
    cases ha
  | ok a => exact hf a (h.2 a rfl)

/-- **Loops.**  Each element has its own condition, and all steps keep the invariant. -/
theorem foldlM {f : β → α → Except Fault β} {c : α → Prop} {I : β → Prop}
    (hstep : ∀ a b, I b → Meets (c a) (f b a) I) :
    ∀ (l : List α) {b : β}, I b → Meets (∀ a ∈ l, c a) (l.foldlM f b) I
  | [], _, hb => meets_ok hb
  | a :: l, b, hb => by
    rw [List.foldlM_cons]
    refine ((hstep a b hb).imp fun h => h a List.mem_cons_self).bind fun b' hb' => ?_
    exact (foldlM hstep l hb').imp fun h x hx => h x (List.mem_cons_of_mem a hx)

end Meets

/-! ### Faults -/

/-- Every fault of a program is one of these. -/
def FailsBy (E : Fault → Prop) (e : Except Fault α) : Prop := ∀ fault, e = .error fault → E fault

namespace FailsBy

variable {E E' : Fault → Prop}

theorem mono (h : FailsBy E e) (hE : ∀ fault, E fault → E' fault) : FailsBy E' e := fun fault he =>
  hE fault (h fault he)

theorem of_ok (h : ∃ a, e = .ok a) : FailsBy E e := by
  rintro fault rfl
  obtain ⟨a, ha⟩ := h
  cases ha

/-- A fault is one of the first part, or of the second after a result of the first. -/
theorem bind (h : FailsBy E e) (hf : ∀ a, e = .ok a → FailsBy E (f a)) : FailsBy E (e >>= f) := by
  cases e with
  | error fault =>
    intro other hother
    cases hother
    exact h fault rfl
  | ok a => exact hf a rfl

end FailsBy

/-! ### Results of sequences and loops -/

theorem exists_of_bind_eq_ok {b : β} (h : e >>= f = .ok b) : ∃ a, e = .ok a ∧ f a = .ok b := by
  cases e with
  | error fault => cases h
  | ok a => exact ⟨a, rfl, h⟩

/-- What a loop has brought about was brought about by one of its steps. -/
theorem exists_change_of_foldlM {f : β → α → Except Fault β} {P : β → Prop} {l : List α} {b c : β}
    (h : l.foldlM f b = .ok c) (hb : ¬ P b) (hc : P c) :
    ∃ before a after u v, l = before ++ a :: after ∧ before.foldlM f b = .ok u ∧ f u a = .ok v ∧
      ¬ P u ∧ P v ∧ after.foldlM f v = .ok c := by
  induction l generalizing b with
  | nil =>
    cases h
    exact absurd hc hb
  | cons a l ih =>
    rw [List.foldlM_cons] at h
    obtain ⟨v, hv, h⟩ := exists_of_bind_eq_ok h
    by_cases hPv : P v
    · -- The first element already makes `P` hold.
      exact ⟨[], a, l, b, v, rfl, rfl, hv, hb, hPv, h⟩
    · -- `P` does not hold yet, so the change comes later in the list.
      obtain ⟨before, d, after, u, w, hl, hu, hw, hPu, hPw, hend⟩ := ih h hPv
      refine ⟨a :: before, d, after, u, w, by rw [hl, List.cons_append], ?_, hw, hPu, hPw, hend⟩
      rw [List.foldlM_cons, hv]
      exact hu

/-- What has been computed from a result tells that there is one. -/
theorem exists_of_map_toOption_eq_some {g : α → β} {b : β} (h : e.toOption.map g = some b) :
    ∃ a, e = .ok a ∧ g a = b := by
  cases e with
  | error fault => cases h
  | ok a => exact ⟨a, rfl, Option.some.inj h⟩

/-! ### Runs -/

namespace Run

variable {K : Type}

theorem exists_of_bind_eq_ok {r : Run K α} {f : α → Run K β} {b : β}
    (h : (r >>= f).result = .ok b) : ∃ a, r.result = .ok a ∧ (f a).result = .ok b := by
  rw [result_bind] at h
  exact RulerCompass.exists_of_bind_eq_ok h

/-- Notices do not influence a loop. -/
theorem result_foldlM (f : β → α → Run K β) (l : List α) (b : β) :
    (l.foldlM f b).result = l.foldlM (fun b a => (f b a).result) b := by
  induction l generalizing b with
  | nil => rfl
  | cons a l ih =>
    rw [List.foldlM_cons, List.foldlM_cons, result_bind]
    congr 1
    funext b
    exact ih b

theorem failsBy_bind {E : Fault → Prop} {r : Run K α} {f : α → Run K β} (h : FailsBy E r.result)
    (hf : ∀ a, r.result = .ok a → FailsBy E (f a).result) : FailsBy E (r >>= f).result := by
  rw [result_bind]
  exact h.bind hf

theorem meets_bind {r : Run K α} {f : α → Run K β} (h : Meets p r.result P)
    (hf : ∀ a, P a → Meets p (f a).result R) : Meets p (r >>= f).result R := by
  rw [result_bind]
  exact h.bind hf

end Run

end RulerCompass
