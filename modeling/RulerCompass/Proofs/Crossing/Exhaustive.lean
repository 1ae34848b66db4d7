import Mathlib.Data.Sym.Sym2
import RulerCompass.Proofs.Crossing.Current
import RulerCompass.Proposition.Basic

/-!
# What a search leaves out

A search goes through numbered common points: those of the element with every other circle and segment,
each of them once.  What it comes upon it keeps, unless it lies near something that stands there already.
So a common point is missing from the result for a reason that can be named (`LeftOut`), and leaving one
out does not change the numbers of the others.
-/

namespace RulerCompass

variable {K : Type}

namespace Figure

variable {f : Figure K} {e other : Element K}

/-! ### Partners -/

/-- Circles and segments together are all that is drawn but the points. -/
theorem curves_perm (f : Figure K) :
    f.curves.Perm (f.circles.map .circle ++ f.segments.map .segment) := by
  rw [curves, circles, segments]
  induction f.elements with
  | nil => exact .nil
  | cons e es ih =>
    cases e with
    | point p => exact ih
    | circle c => exact ih.cons _
    | segment s => exact (ih.cons _).trans List.perm_middle.symm

/-- An element has every other circle and segment as a partner, when no two share an id. -/
theorem mem_partners_iff (hids : (f.curves.map Element.id).Nodup) (he : e ∈ f.curves) :
    other ∈ f.partners e ↔ other ∈ f.curves ∧ other ≠ e := by
  refine ⟨fun h => ?_, fun ⟨hother, hne⟩ => ?_⟩
  · obtain ⟨hother, hne⟩ := mem_curves_of_mem_partners h
    exact ⟨hother, hne.symm⟩
  · -- Ids tell elements apart, so leaving out those of the same id leaves out the element alone.
    have hid : other.id ≠ e.id := fun hid => hne (List.inj_on_of_nodup_map hids hother he hid)
    rcases List.mem_append.mp (f.curves_perm.mem_iff.mp hother) with h | h
    · obtain ⟨d, hd, rfl⟩ := List.mem_map.mp h
      cases e with
      | point p => simp [curves, Element.point?] at he
      | circle c =>
        have hd : d ∈ f.circles.filter fun d => d.id ≠ c.id :=
          List.mem_filter.mpr ⟨hd, decide_eq_true hid⟩
        exact List.mem_append_left _ (List.mem_map_of_mem hd)
      | segment s => exact List.mem_append_left _ h
    · obtain ⟨t, ht, rfl⟩ := List.mem_map.mp h
      cases e with
      | point p => simp [curves, Element.point?] at he
      | circle c => exact List.mem_append_right _ h
      | segment s =>
        have ht : t ∈ f.segments.filter fun t => t.id ≠ s.id :=
          List.mem_filter.mpr ⟨ht, decide_eq_true hid⟩
        exact List.mem_append_right _ (List.mem_map_of_mem ht)

theorem partners_sublist (f : Figure K) (e : Element K) :
    (f.partners e).Sublist (f.circles.map .circle ++ f.segments.map .segment) := by
  cases e with
  | point p => exact List.nil_sublist _
  | circle c => exact (List.filter_sublist.map _).append (List.Sublist.refl _)
  | segment s => exact (List.Sublist.refl _).append (List.filter_sublist.map _)

theorem nodup_ids_partners (hids : (f.curves.map Element.id).Nodup) (e : Element K) :
    ((f.partners e).map Element.id).Nodup :=
  ((f.curves_perm.map Element.id).nodup_iff.mp hids).sublist ((f.partners_sublist e).map _)

/-! ### Numbered common points -/

variable [Scalar K] {extend : Bool} {known : List (Crossing K)}

/-- A search comes upon every common point once: the second element and the number tell them apart. -/
theorem allCrossings_pairwise (hids : (f.curves.map Element.id).Nodup) :
    (f.allCrossings extend e).Pairwise fun c d => ¬ (c.ofB = d.ofB ∧ c.which = d.which) := by
  refine List.pairwise_flatMap.mpr ⟨fun other _ => ?_, ?_⟩
  · refine List.pairwise_iff_getElem.mpr fun i j hi hj hij h => ?_
    rw [List.getElem_mapIdx, List.getElem_mapIdx] at h
    exact absurd (Int.ofNat_inj.mp h.2) (Nat.ne_of_lt hij)
  · refine (List.pairwise_map.mp (nodup_ids_partners hids e)).imp fun hid c hc d hd h => hid ?_
    obtain ⟨i, hi, rfl⟩ := List.mem_mapIdx.mp hc
    obtain ⟨j, hj, rfl⟩ := List.mem_mapIdx.mp hd
    exact h.1

theorem allCrossings_nodup (hids : (f.curves.map Element.id).Nodup) :
    (f.allCrossings extend e).Nodup :=
  (allCrossings_pairwise hids).imp fun h heq => h ⟨by rw [heq], by rw [heq]⟩

/-! ### Keeping what stands apart -/

variable (f known) in
/-- What a search has found after it went through more crossings. -/
def foundAfter (found cs : List (Crossing K)) : List (Crossing K) :=
  cs.foldl (fun found c => if f.admits known found c then found ++ [c] else found) found

theorem foundAfter_append (found cs ds : List (Crossing K)) :
    f.foundAfter known found (cs ++ ds) = f.foundAfter known (f.foundAfter known found cs) ds :=
  List.foldl_append

variable (known) in
/-- A search goes on from what it has found. -/
theorem exists_foundAfter_eq (found cs : List (Crossing K)) :
    ∃ more, more.Sublist cs ∧ f.foundAfter known found cs = found ++ more := by
  induction cs generalizing found with
  | nil => exact ⟨[], List.Sublist.refl _, (List.append_nil found).symm⟩
  | cons c cs ih =>
    rw [foundAfter, List.foldl_cons]
    split
    · obtain ⟨more, hmore, heq⟩ := ih (found ++ [c])
      exact ⟨c :: more, hmore.cons_cons c, by rw [← foundAfter, heq, List.append_assoc]; rfl⟩
    · obtain ⟨more, hmore, heq⟩ := ih found
      exact ⟨more, hmore.cons c, heq⟩

/-- A search returns crossings in the order in which it comes upon them. -/
theorem newCrossings_sublist :
    (f.newCrossings e known extend).Sublist (f.allCrossings extend e) := by
  obtain ⟨more, hmore, heq⟩ := f.exists_foundAfter_eq known [] (f.allCrossings extend e)
  have hsearch : f.newCrossings e known extend = more := heq
  exact hsearch ▸ hmore

variable (known) in
/-- The search in two parts: up to a crossing that it comes upon, and from there on. -/
theorem exists_newCrossings_eq {before after : List (Crossing K)} {c : Crossing K}
    (hsplit : f.allCrossings extend e = before ++ c :: after) :
    ∃ more, more.Sublist after ∧ f.newCrossings e known extend =
      f.foundAfter known [] before ++
        ((if f.admits known (f.foundAfter known [] before) c then [c] else []) ++ more) := by
  have hsearch : f.newCrossings e known extend =
      f.foundAfter known (f.foundAfter known [] before) (c :: after) := by
    rw [← foundAfter_append, ← hsplit]
    rfl
  -- What has been found up to `c` stays, and the rest of the search goes on behind it.
  obtain ⟨more, hmore, heq⟩ := f.exists_foundAfter_eq known
    (if f.admits known (f.foundAfter known [] before) c then f.foundAfter known [] before ++ [c]
      else f.foundAfter known [] before) after
  refine ⟨more, hmore, ?_⟩
  rw [hsearch, foundAfter, List.foldl_cons, ← foundAfter, heq]
  split
  · rw [List.append_assoc]
  · rfl

/-- The search of `e` comes upon the first crossing before the second. -/
def ComesFirst (f : Figure K) (e : Element K) (extend : Bool) (c d : Crossing K) : Prop :=
  ∃ before after, f.allCrossings extend e = before ++ d :: after ∧ c ∈ before

/-- Why a search leaves out a crossing: near it there is a known crossing, a point of the figure, or a
crossing that the search has found before. -/
def LeftOut (f : Figure K) (e : Element K) (known : List (Crossing K)) (extend : Bool)
    (c : Crossing K) : Prop :=
  (∃ k ∈ known, c.position.Near k.position) ∨ (∃ p ∈ f.points, c.position.Near p.position) ∨
    ∃ k ∈ f.newCrossings e known extend, f.ComesFirst e extend k c ∧ c.position.Near k.position

section Splitting

variable {before after : List (Crossing K)} {c k : Crossing K}
  (hnodup : (f.allCrossings extend e).Nodup) (hsplit : f.allCrossings extend e = before ++ c :: after)

include hnodup hsplit

/-- A search has only one way to come upon a crossing. -/
theorem comesFirst_iff : f.ComesFirst e extend k c ↔ k ∈ before := by
  refine ⟨fun ⟨before', after', hsplit', hk⟩ => ?_, fun hk => ⟨before, after, hsplit, hk⟩⟩
  rw [hsplit] at hnodup hsplit'
  have hc := (List.nodup_middle.mp hnodup).notMem
  rw [List.mem_append, not_or] at hc
  obtain ⟨rfl, -, -⟩ := (List.append_cons_inj_of_notMem hc.1 hc.2).mp hsplit'
  exact hk

/-- What has been found when the search comes upon a crossing is what it finds before. -/
theorem mem_foundAfter_iff : k ∈ f.foundAfter known [] before ↔
    k ∈ f.newCrossings e known extend ∧ f.ComesFirst e extend k c := by
  obtain ⟨more, hmore, hfound⟩ := exists_newCrossings_eq known hsplit
  rw [comesFirst_iff hnodup hsplit, hfound]
  refine ⟨fun hk => ⟨List.mem_append_left _ hk, ?_⟩, fun ⟨hk, hbefore⟩ => ?_⟩
  · -- What is found early stays found.
    obtain ⟨early, hearly, heq⟩ := f.exists_foundAfter_eq known [] before
    exact hearly.subset ((heq.trans (List.nil_append early)) ▸ hk)
  · -- What comes before `c` is neither `c` nor behind it, as no crossing is listed twice.
    rw [hsplit] at hnodup
    have hafter : k ∉ c :: after := fun hk => (List.nodup_append.mp hnodup).2.2 k hbefore k hk rfl
    refine (List.mem_append.mp hk).resolve_right fun hk => hafter ?_
    rcases List.mem_append.mp hk with hk | hk
    · split at hk
      · exact List.mem_singleton.mp hk ▸ List.mem_cons_self
      · cases hk
    · exact List.mem_cons_of_mem c (hmore.subset hk)

/-- A search finds a crossing just when it admits it beside what it has found before. -/
theorem mem_newCrossings_iff_admits :
    c ∈ f.newCrossings e known extend ↔ f.admits known (f.foundAfter known [] before) c = true := by
  obtain ⟨more, hmore, hfound⟩ := exists_newCrossings_eq known hsplit
  have hearly : c ∉ f.foundAfter known [] before := fun hc => by
    have hbefore := (comesFirst_iff hnodup hsplit).mp (mem_foundAfter_iff hnodup hsplit |>.mp hc).2
    exact (List.nodup_append.mp (hsplit ▸ hnodup)).2.2 c hbefore c List.mem_cons_self rfl
  have hlate : c ∉ more := fun hc => by
    have hrest := (List.nodup_append.mp (hsplit ▸ hnodup)).2.1
    exact (List.nodup_cons.mp hrest).1 (hmore.subset hc)
  rw [hfound, List.mem_append, List.mem_append, or_iff_right hearly, or_iff_left hlate]
  split <;> simp_all

end Splitting

/-- **Found or left out.**  What a search comes upon it finds, unless there is a reason to leave it out. -/
theorem mem_newCrossings_iff (hnodup : (f.allCrossings extend e).Nodup) {c : Crossing K}
    (hc : c ∈ f.allCrossings extend e) :
    c ∈ f.newCrossings e known extend ↔ ¬ f.LeftOut e known extend c := by
  obtain ⟨before, after, hsplit⟩ := List.append_of_mem hc
  rw [mem_newCrossings_iff_admits hnodup hsplit, admits_iff, List.forall_mem_append]
  simp only [LeftOut, not_or, not_exists, not_and, mem_foundAfter_iff hnodup hsplit, and_imp]
  tauto

/-! ### Elements that meet nothing -/

/-- Something is missing that the element needs to meet another one: an end of a segment, or the centre,
the radius point or a positive radius of a circle. -/
def Lacks (f : Figure K) : Element K → Prop
  | .point _ => False
  | .segment s => f.point? s.fromId = none ∨ f.point? s.toId = none
  | .circle c => f.point? c.centerId = none ∨ f.point? c.radiusPointId = none ∨
    ∃ r, f.distance? c.centerId c.radiusPointId = some r ∧ r ≤ 0.0

theorem span?_of_lacks {s : Segment} (h : f.Lacks (.segment s)) : f.span? s = none := by
  rcases h with h | h
  · rw [span?, h]
    rfl
  · rw [span?, h]
    cases f.point? s.fromId <;> rfl

theorem disc?_of_lacks (hids : (f.curves.map Element.id).Nodup) (hzero : (0.0 : K) ≤ 0.0)
    {c : Circle} (hc : c ∈ f.circles) (h : f.Lacks (.circle c)) : f.disc? c = none := by
  have hfound : f.circle? c.id = some c := circle?_eq_some hc fun d hd hid =>
    Element.circle.inj
      (List.inj_on_of_nodup_map hids (circle_mem_curves.mpr hd) (circle_mem_curves.mpr hc) hid)
  have hradius : f.radius c.id = (f.distance? c.centerId c.radiusPointId).getD 0.0 := by
    rw [radius, hfound]
  -- Without the centre there is no disc; with it the radius is not positive.
  cases hcenter : f.point? c.centerId with
  | none =>
    rw [disc?, hcenter]
    rfl
  | some center =>
    have hsize : f.radius c.id ≤ 0.0 := by
      rw [hradius]
      rcases h with h | h | ⟨r, hr, hsize⟩
      · -- The centre is there, so it is not what is missing.
        rw [hcenter] at h
        cases h
      · -- Without the radius point the radius is nought.
        have hnone : f.distance? c.centerId c.radiusPointId = none := by
          rw [distance?, hcenter, h]
          rfl
        rw [hnone]
        exact hzero
      · -- Both points are there, and their distance is not positive.
        rw [hr]
        exact hsize
    rw [disc?, hcenter]
    exact if_pos hsize

/-- An element that lacks something meets nothing. -/
theorem meetings_of_lacks (hids : (f.curves.map Element.id).Nodup) (hzero : (0.0 : K) ≤ 0.0)
    (he : e ∈ f.curves) (hother : other ∈ f.curves) (h : f.Lacks e ∨ f.Lacks other) :
    f.meetings extend e other = [] := by
  -- Whichever of the two is lacking, the search needs both.
  cases e with
  | point p => rfl
  | circle c =>
    cases other with
    | point p => rfl
    | circle d =>
      rcases h with h | h
      · rw [meetings, disc?_of_lacks hids hzero (circle_mem_curves.mp he) h]
      · rw [meetings, disc?_of_lacks hids hzero (circle_mem_curves.mp hother) h]
        cases f.disc? c <;> rfl
    | segment s =>
      rcases h with h | h
      · rw [meetings, disc?_of_lacks hids hzero (circle_mem_curves.mp he) h]
      · rw [meetings, span?_of_lacks h]
        cases f.disc? c <;> rfl
  | segment s =>
    cases other with
    | point p => rfl
    | circle d =>
      rcases h with h | h
      · rw [meetings, span?_of_lacks h]
        cases f.disc? d <;> rfl
      · rw [meetings, disc?_of_lacks hids hzero (circle_mem_curves.mp hother) h]
    | segment t =>
      rcases h with h | h
      · rw [meetings, span?_of_lacks h]
      · rw [meetings, span?_of_lacks h]
        cases f.span? s <;> rfl

/-! ### All that a search does -/

/-- Two crossings of one search differ in their parents, in either order, or in their number. -/
theorem newCrossings_pairwise (hids : (f.curves.map Element.id).Nodup) (he : e ∈ f.curves) :
    (f.newCrossings e known extend).Pairwise fun c d =>
      ¬ (s(c.ofA, c.ofB) = s(d.ofA, d.ofB) ∧ c.which = d.which) := by
  refine ((allCrossings_pairwise hids).sublist newCrossings_sublist).imp_of_mem ?_
  intro c d hc hd hne ⟨hparents, hwhich⟩
  obtain ⟨a, ha, i, p, -, rfl⟩ := mem_allCrossings_iff.mp (newCrossings_sublist.subset hc)
  obtain ⟨b, hb, j, q, -, rfl⟩ := mem_allCrossings_iff.mp (newCrossings_sublist.subset hd)
  rcases Sym2.eq_iff.mp hparents with ⟨-, hsame⟩ | ⟨hfirst, -⟩
  · exact hne ⟨hsame, hwhich⟩
  · -- the second parent is another element than the first one
    obtain ⟨hb, hother⟩ := (mem_partners_iff hids he).mp hb
    exact hother (List.inj_on_of_nodup_map hids hb he hfirst.symm)

/-- **A search misses nothing.**  Let no two circles or segments of a figure share an id, and search the
crossings of one of them.  Of the numbered points that it has in common with any other one, each is found
under its number, unless it lies near a known crossing, a point of the figure or a crossing that was found
before it.  Nothing else is found, in the order in which the search comes upon it; no two of the crossings
share both parents and number.  Two elements have no common points when one of them lacks a point or a
positive radius. -/
theorem search_exhaustive (f : Figure Float) (e : Element Float) (known : List (Crossing Float))
    (extend : Bool) (hids : (f.curves.map Element.id).Nodup) (he : e ∈ f.curves) :
    (∀ other ∈ f.curves, other ≠ e → ∀ (which : Nat) (place : Coord Float),
      (f.meetings extend e other)[which]? = some place →
        (crossingAt e other which place ∈ f.newCrossings e known extend ↔
          ¬ f.LeftOut e known extend (crossingAt e other which place))) ∧
      (∀ c ∈ f.newCrossings e known extend, ∃ other ∈ f.curves, other ≠ e ∧
        ∃ (which : Nat) (place : Coord Float),
          (f.meetings extend e other)[which]? = some place ∧ c = crossingAt e other which place) ∧
      (f.newCrossings e known extend).Sublist (f.allCrossings extend e) ∧
      ((f.newCrossings e known extend).Pairwise fun c d =>
        ¬ (s(c.ofA, c.ofB) = s(d.ofA, d.ofB) ∧ c.which = d.which)) ∧
      ∀ other ∈ f.curves, f.Lacks e ∨ f.Lacks other → f.meetings extend e other = [] := by
  have hzero : (0.0 : Float) ≤ 0.0 := by decide +kernel
  refine ⟨fun other hother hne which place hplace => ?_, fun c hc => ?_, newCrossings_sublist,
    newCrossings_pairwise hids he, fun other hother h => meetings_of_lacks hids hzero he hother h⟩
  · -- Every meeting of a partner is searched for.
    have hpartner := (mem_partners_iff hids he).mpr ⟨hother, hne⟩
    exact mem_newCrossings_iff (allCrossings_nodup hids)
      (mem_allCrossings_iff.mpr ⟨other, hpartner, which, place, hplace, rfl⟩)
  · -- What is found is a meeting of a partner.
    obtain ⟨other, hother, hplace⟩ := mem_allCrossings_iff.mp (newCrossings_sublist.subset hc)
    obtain ⟨hother, hne⟩ := (mem_partners_iff hids he).mp hother
    exact ⟨other, hother, hne, hplace⟩

/-- A circle about the end `A` of the given line `AB` meets the line in the point `C`, where nothing is
found, and the prolonged line on the other side, where the crossing keeps its number. -/
theorem search_exhaustive_prolonged :
    let base : Segment := ⟨"seg-AB", "pt-A", "pt-B", "", .given⟩
    let circle : Circle := ⟨"cir-1", "pt-A", "pt-C", "", .compass⟩
    let f : Figure Float := Figure.ofGiven
      [Point.given "A" ⟨0.0, 0.0⟩, Point.given "B" ⟨2.0, 0.0⟩, Point.given "C" ⟨1.0, 0.0⟩,
        .segment base, .circle circle]
    (f.curves.map Element.id).Nodup ∧ .circle circle ∈ f.curves ∧
      f.meetings true (.circle circle) (.segment base) = [⟨1.0, 0.0⟩, ⟨-1.0, 0.0⟩] ∧
      f.LeftOut (.circle circle) [] true (crossingAt (.circle circle) (.segment base) 0 ⟨1.0, 0.0⟩) ∧
      f.newCrossings (.circle circle) [] true =
        [crossingAt (.circle circle) (.segment base) 1 ⟨-1.0, 0.0⟩] := by
  intro base circle f
  have hids : (f.curves.map Element.id).Nodup := by decide
  have hcircle : .circle circle ∈ f.curves := by decide +kernel
  have hmeetings : f.meetings true (.circle circle) (.segment base) = [⟨1.0, 0.0⟩, ⟨-1.0, 0.0⟩] := by
    decide +kernel
  have hfound : f.newCrossings (.circle circle) [] true =
      [crossingAt (.circle circle) (.segment base) 1 ⟨-1.0, 0.0⟩] := by decide +kernel
  refine ⟨hids, hcircle, hmeetings, ?_, hfound⟩
  obtain ⟨hkept, -⟩ := search_exhaustive f (.circle circle) [] true hids hcircle
  have hfirst := hkept (.segment base) (by decide +kernel) nofun 0 ⟨1.0, 0.0⟩ (by rw [hmeetings]; rfl)
  rw [hfound] at hfirst
  exact not_not.mp (mt hfirst.mpr (by decide +kernel))

end Figure

end RulerCompass
