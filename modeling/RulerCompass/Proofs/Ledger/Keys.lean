import RulerCompass.Proofs.Figure.Grounds
import RulerCompass.Proofs.Ledger.Known

/-!
# Keys of relations

The forest knows a relation by its key only, a text with a bar between two ids and a colon behind the vertex
of an angle.  Ids that contain neither mark can be read off the key again, so a plain relation shares its
key with no other one.  Chains of keys then are chains of relations: what is known about plain relations is
the closure of the facts, read as pairs of relations.
-/

namespace RulerCompass

/-! ### Reading keys -/

/-- A text in which a mark occurs once is divided by it in one way. -/
theorem eq_of_mark {mark : String} {c : Char} (hmark : mark.toList = [c]) {a b a' b' : String}
    (ha : c ∉ a.toList) (hb : c ∉ b.toList) (h : a ++ mark ++ b = a' ++ mark ++ b') :
    a = a' ∧ b = b' := by
  have hchars : a.toList ++ c :: b.toList = a'.toList ++ c :: b'.toList := by
    simpa [hmark] using congrArg String.toList h
  obtain ⟨hleft, -, hright⟩ := (List.append_cons_inj_of_notMem ha hb).mp hchars
  exact ⟨String.toList_inj.mp hleft, String.toList_inj.mp hright⟩

namespace Relation

variable {r s : Relation}

/-- The ids contain neither of the marks of keys. -/
def Plain (r : Relation) : Prop := ∀ id ∈ r.points, '|' ∉ id.toList ∧ ':' ∉ id.toList

instance (r : Relation) : Decidable r.Plain := inferInstanceAs (Decidable (∀ id ∈ _, _))

/-- The ids of a plain distance are read off its key. -/
theorem distance_eq_of_key_eq {d d' : Distance} (hd : (distance d).Plain) (h : d.key = d'.key) :
    d = d' := by
  obtain ⟨a, b⟩ := d
  obtain ⟨a', b'⟩ := d'
  simp only [Plain, points, List.forall_mem_cons] at hd
  obtain ⟨ha, hb, -⟩ := hd
  obtain ⟨rfl, rfl⟩ := eq_of_mark rfl ha.1 hb.1 h
  rfl

/-- The ids of a plain angle are read off its key. -/
theorem angle_eq_of_key_eq {a a' : Angle} (ha : (angle a).Plain) (h : a.key = a'.key) : a = a' := by
  obtain ⟨vertex, ray1, ray2⟩ := a
  obtain ⟨vertex', ray1', ray2'⟩ := a'
  simp only [Plain, points, List.forall_mem_cons] at ha
  obtain ⟨hvertex, hray1, hray2, -⟩ := ha
  have hfront : '|' ∉ (vertex ++ ":" ++ ray1).toList := by simp [hvertex.1, hray1.1]
  -- The bar stands behind the first ray, so it is read before the colon.
  obtain ⟨hfront', rfl⟩ := eq_of_mark rfl hfront hray2.1 h
  obtain ⟨rfl, rfl⟩ := eq_of_mark rfl hvertex.2 hray1.2 hfront'
  rfl

/-- A plain relation shares its key with no other relation. -/
theorem eq_of_key_eq (hr : r.Plain) (h : r.key = s.key) : r = s := by
  cases r with
  | distance d =>
    cases s with
    | distance d' => rw [distance_eq_of_key_eq hr ((String.append_right_inj _).mp h)]
    | angle a => exact absurd h (distance_key_ne_angle_key d a)
  | angle a =>
    cases s with
    | distance d => exact absurd h.symm (distance_key_ne_angle_key d a)
    | angle a' => rw [angle_eq_of_key_eq hr ((String.append_right_inj _).mp h)]

/-- Ids that contain the bar can be divided in more than one way. -/
example : (distance ⟨"A|B", "C"⟩).key = (distance ⟨"A", "B|C"⟩).key := by decide

/-! ### Chains of relations -/

/-- The relations are the left and the right side of one of the equations. -/
def Sides (es : List Equation) (r s : Relation) : Prop := ∃ e ∈ es, e.left = r ∧ e.right = s

/-- Both sides of each equation are plain. -/
def AllPlain (es : List Equation) : Prop := ∀ e ∈ es, e.left.Plain ∧ e.right.Plain

instance (es : List Equation) : Decidable (AllPlain es) := inferInstanceAs (Decidable (∀ e ∈ _, _))

variable {es : List Equation}

/-- A chain of keys that starts at a plain relation passes plain ones only, and each step of it is an
equation between them. -/
theorem eqvGen_of_chained (hes : AllPlain es) (hr : r.Plain) {k : String} (h : Chained es r.key k)
    (hk : s.key = k) : Relation.EqvGen (Sides es) r s := by
  induction h generalizing s with
  | refl =>
    rw [eq_of_key_eq hr hk.symm]
    exact .refl s
  | tail _ hj ih =>
    obtain ⟨e, he, ⟨hfrom, hto⟩ | ⟨hto, hfrom⟩⟩ := hj
    · have hs : e.right = s := eq_of_key_eq (hes e he).2 (hto.trans hk.symm)
      exact (ih hfrom).trans _ _ _ (.rel _ _ ⟨e, he, rfl, hs⟩)
    · have hs : e.left = s := eq_of_key_eq (hes e he).1 (hto.trans hk.symm)
      exact (ih hfrom).trans _ _ _ (.symm _ _ (.rel _ _ ⟨e, he, hs, rfl⟩))

theorem chained_of_eqvGen (h : Relation.EqvGen (Sides es) r s) : Chained es r.key s.key := by
  induction h with
  | rel r s hsides =>
    obtain ⟨e, he, rfl, rfl⟩ := hsides
    exact .of_mem he
  | refl r => exact .refl r.key
  | symm r s _ ih => exact ih.symm
  | trans r s t _ _ ih ih' => exact ih.trans ih'

/-- Among plain relations, chains of keys are chains of relations. -/
theorem chained_iff_eqvGen (hes : AllPlain es) (hr : r.Plain) :
    Chained es r.key s.key ↔ Relation.EqvGen (Sides es) r s :=
  ⟨fun h => eqvGen_of_chained hes hr h rfl, chained_of_eqvGen⟩

end Relation

namespace Ledger

/-- **Keys lose nothing.**  While the sides of all facts are plain, a plain relation is known to be equal to
exactly those that the reflexive, symmetric and transitive closure of the facts relates it to, taken as
pairs of relations.  Plain distances, and plain angles, have keys of their own; a distance and an angle
never share a key, be they plain or not. -/
theorem equal_iff_eqvGen_sides (calls : List Call) :
    let l := after {} calls
    let es := l.facts.map Fact.equation
    (Relation.AllPlain es → ∀ r s : Relation, r.Plain →
      ((l.equal r s).1 = true ↔ Relation.EqvGen (Relation.Sides es) r s)) ∧
    (∀ d d' : Distance, (Relation.distance d).Plain → d.key = d'.key → d = d') ∧
    (∀ a a' : Angle, (Relation.angle a).Plain → a.key = a'.key → a = a') ∧
    ∀ (d : Distance) (a : Angle), (Relation.distance d).key ≠ (Relation.angle a).key := by
  intro l es
  have h : l.Coherent := coherent_empty.after calls
  refine ⟨fun hes r s hr => ?_, fun d d' => Relation.distance_eq_of_key_eq,
    fun a a' => Relation.angle_eq_of_key_eq, distance_key_ne_angle_key⟩
  -- Entailment is a chain over the keys, and plain relations are told apart by their keys.
  rw [h.equal_iff]
  exact Relation.chained_iff_eqvGen hes hr

/-- Of four distances and two angles, the first distance is related to the third one over two facts, and to
no distance that no fact speaks of. -/
theorem equal_iff_eqvGen_sides_three :
    let ab : Relation := .distance (.between "A" "B")
    let ef : Relation := .distance (.between "F" "E")
    let gh : Relation := .distance (.between "G" "H")
    let calls : List Call :=
      [.record ⟨.distances (.between "A" "B") (.between "C" "D"), .given, "", ""⟩ 0,
        .record ⟨.angles (.between "A" "B" "C") (.between "D" "E" "F"), .given, "", ""⟩ 0,
        .record ⟨.distances (.between "E" "F") (.between "D" "C"), .cn4, "", ""⟩ 1]
    let es := (after {} calls).facts.map Fact.equation
    Relation.AllPlain es ∧ ab.Plain ∧ Relation.EqvGen (Relation.Sides es) ab ef ∧
      ¬ Relation.EqvGen (Relation.Sides es) ab gh := by
  intro ab ef gh calls es
  have hes : Relation.AllPlain es := by decide +kernel
  have hab : ab.Plain := by decide +kernel
  obtain ⟨hequal, -⟩ := equal_iff_eqvGen_sides calls
  have hyes : ((after {} calls).equal ab ef).1 = true := by decide +kernel
  have hno : ¬ ((after {} calls).equal ab gh).1 = true := by decide +kernel
  exact ⟨hes, hab, (hequal hes ab ef hab).mp hyes, fun hgh => hno ((hequal hes ab gh hab).mpr hgh)⟩

end Ledger

end RulerCompass
