import RulerCompass.Proofs.Meets

/-!
# Two runs side by side

`Relates R e e'` says that `R` relates the results of two programs when both have one.  `Agree R e e'`
says moreover that they end alike, and then with the same fault.  The rules follow the forms of programs as
those of `Meets` do, so one walk through two programs of the same shape compares them.
-/

namespace RulerCompass

variable {α β γ δ ι : Type}

/-! ### Results where there are any -/

/-- The results of both programs are related, if there are two. -/
def Relates (R : α → β → Prop) (e : Except Fault α) (e' : Except Fault β) : Prop :=
  ∀ a b, e = .ok a → e' = .ok b → R a b

namespace Relates

variable {R S : α → β → Prop} {T : γ → δ → Prop} {e : Except Fault α} {e' : Except Fault β}

theorem mono (h : Relates R e e') (hS : ∀ a b, R a b → S a b) : Relates S e e' :=
  fun a b ha hb => hS a b (h a b ha hb)

theorem of_ok {a : α} {b : β} (h : R a b) : Relates R (.ok a) (.ok b) := by
  intro _ _ ha hb
  cases ha
  cases hb
  exact h

/-- **Sequencing.**  The second parts may use how the first results are related. -/
theorem bind {f : α → Except Fault γ} {g : β → Except Fault δ} (h : Relates R e e')
    (hfg : ∀ a b, R a b → Relates T (f a) (g b)) : Relates T (e >>= f) (e' >>= g) := by
  intro c d hc hd
  obtain ⟨a, ha, hc⟩ := exists_of_bind_eq_ok hc
  obtain ⟨b, hb, hd⟩ := exists_of_bind_eq_ok hd
  exact hfg a b (h a b ha hb) c d hc hd

/-- **Loops** over one list, each of whose steps keeps the results related. -/
theorem foldlM {f : α → ι → Except Fault α} {g : β → ι → Except Fault β} (l : List ι)
    (hstep : ∀ i ∈ l, ∀ a b, R a b → Relates R (f a i) (g b i)) {a : α} {b : β} (h : R a b) :
    Relates R (l.foldlM f a) (l.foldlM g b) := by
  induction l generalizing a b with
  | nil => exact .of_ok h
  | cons i l ih =>
    rw [List.foldlM_cons, List.foldlM_cons]
    refine (hstep i List.mem_cons_self a b h).bind fun a' b' h' => ?_
    exact ih (fun j hj => hstep j (List.mem_cons_of_mem i hj)) h'

end Relates

/-! ### Results and faults -/

/-- Both programs have results, which are related, or both end with the same fault. -/
inductive Agree (R : α → β → Prop) : Except Fault α → Except Fault β → Prop
  | ok {a : α} {b : β} (h : R a b) : Agree R (.ok a) (.ok b)
  | error (fault : Fault) : Agree R (.error fault) (.error fault)

namespace Agree

variable {R S : α → β → Prop} {T : γ → δ → Prop} {e : Except Fault α} {e' : Except Fault β}

theorem mono (h : Agree R e e') (hS : ∀ a b, R a b → S a b) : Agree S e e' := by
  cases h with
  | ok h => exact .ok (hS _ _ h)
  | error fault => exact .error fault

theorem refl (e : Except Fault α) : Agree (fun a b => a = b) e e := by
  cases e with
  | ok a => exact .ok rfl
  | error fault => exact .error fault

/-- Programs that fail for the same faults agree when their results are related. -/
theorem of_relates (h : Relates R e e') (hfaults : ∀ fault, e = .error fault ↔ e' = .error fault) :
    Agree R e e' := by
  cases e with
  | error fault =>
    rw [(hfaults fault).mp rfl]
    exact .error fault
  | ok a =>
    cases e' with
    | error fault => cases (hfaults fault).mpr rfl
    | ok b => exact .ok (h a b rfl rfl)

/-- **Sequencing.**  The second parts may use how the first results are related. -/
theorem bind {f : α → Except Fault γ} {g : β → Except Fault δ} (h : Agree R e e')
    (hfg : ∀ a b, R a b → Agree T (f a) (g b)) : Agree T (e >>= f) (e' >>= g) := by
  cases h with
  | ok h => exact hfg _ _ h
  | error fault => exact .error fault

/-- **Loops** over one list, each of whose steps keeps the results related. -/
theorem foldlM {f : α → ι → Except Fault α} {g : β → ι → Except Fault β} (l : List ι)
    (hstep : ∀ i ∈ l, ∀ a b, R a b → Agree R (f a i) (g b i)) {a : α} {b : β} (h : R a b) :
    Agree R (l.foldlM f a) (l.foldlM g b) := by
  induction l generalizing a b with
  | nil => exact .ok h
  | cons i l ih =>
    rw [List.foldlM_cons, List.foldlM_cons]
    refine (hstep i List.mem_cons_self a b h).bind fun a' b' h' => ?_
    exact ih (fun j hj => hstep j (List.mem_cons_of_mem i hj)) h'

theorem rel {a : α} {b : β} (h : Agree R e e') (ha : e = .ok a) (hb : e' = .ok b) : R a b := by
  subst ha hb
  cases h with
  | ok h => exact h

theorem map_eq {f : α → γ} {g : β → γ} (h : Agree (fun a b => f a = g b) e e') :
    e.map f = e'.map g := by
  cases h with
  | ok h => exact congrArg Except.ok h
  | error fault => rfl

end Agree

/-! ### Runs -/

namespace Run

variable {K : Type} {R : α → β → Prop} {T : γ → δ → Prop}

theorem relates_bind {r : Run K α} {r' : Run K β} {f : α → Run K γ} {g : β → Run K δ}
    (h : Relates R r.result r'.result)
    (hfg : ∀ a b, R a b → Relates T (f a).result (g b).result) :
    Relates T (r >>= f).result (r' >>= g).result := by
  rw [result_bind, result_bind]
  exact h.bind hfg

theorem relates_foldlM {f : α → ι → Run K α} {g : β → ι → Run K β} (l : List ι)
    (hstep : ∀ i ∈ l, ∀ a b, R a b → Relates R (f a i).result (g b i).result) {a : α} {b : β}
    (h : R a b) : Relates R (l.foldlM f a).result (l.foldlM g b).result := by
  rw [result_foldlM, result_foldlM]
  exact Relates.foldlM l hstep h

theorem agree_bind {r : Run K α} {r' : Run K β} {f : α → Run K γ} {g : β → Run K δ}
    (h : Agree R r.result r'.result) (hfg : ∀ a b, R a b → Agree T (f a).result (g b).result) :
    Agree T (r >>= f).result (r' >>= g).result := by
  rw [result_bind, result_bind]
  exact h.bind hfg

theorem agree_foldlM {f : α → ι → Run K α} {g : β → ι → Run K β} (l : List ι)
    (hstep : ∀ i ∈ l, ∀ a b, R a b → Agree R (f a i).result (g b i).result) {a : α} {b : β}
    (h : R a b) : Agree R (l.foldlM f a).result (l.foldlM g b).result := by
  rw [result_foldlM, result_foldlM]
  exact Agree.foldlM l hstep h

end Run

end RulerCompass
