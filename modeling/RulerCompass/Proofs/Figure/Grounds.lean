import RulerCompass.Ledger.Fact
import RulerCompass.Proofs.Figure.Growth

/-!
# Equations about points of a figure

An equation names points by their ids, and nothing keeps it from naming one that the figure does not
have.  A figure grounds the equations all of whose points it has, and it goes on to ground them while
more is drawn.
-/

namespace RulerCompass

variable {K : Type}

namespace Relation

/-- The ids of the points that a relation is about. -/
def points : Relation → List String
  | distance d => [d.a, d.b]
  | angle a => [a.vertex, a.ray1, a.ray2]

end Relation

namespace Equation

/-- The ids of the points on both sides. -/
def points (e : Equation) : List String := e.left.points ++ e.right.points

end Equation

theorem Distance.mem_points_between {p q id : String} :
    id ∈ (Relation.distance (.between p q)).points ↔ id = p ∨ id = q := by
  rw [Distance.between]
  split
  · simp [Relation.points, or_comm]
  · simp [Relation.points]

theorem Distance.mem_points_equation {p q r s id : String} :
    id ∈ (Equation.distances (.between p q) (.between r s)).points ↔
      (id = p ∨ id = q) ∨ (id = r ∨ id = s) := by
  rw [Equation.points, List.mem_append, Equation.left, Equation.right]
  exact or_congr mem_points_between mem_points_between

namespace Figure

variable {style : Style} {f g : Figure K}

/-- All points that the equation is about are there. -/
def Grounds (f : Figure K) (e : Equation) : Prop := ∀ id ∈ e.points, (f.point? id).isSome

theorem GrowsTo.grounds (hfg : f.GrowsTo g) {e : Equation} (he : f.Grounds e) : g.Grounds e :=
  fun id hid => hfg.isSome_point? (he id hid)

theorem grounds_distances {p q r s : String} (hp : (f.point? p).isSome) (hq : (f.point? q).isSome)
    (hr : (f.point? r).isSome) (hs : (f.point? s).isSome) :
    f.Grounds (.distances (.between p q) (.between r s)) := by
  intro id hid
  rcases Distance.mem_points_equation.mp hid with (rfl | rfl) | (rfl | rfl)
  · exact hp
  · exact hq
  · exact hr
  · exact hs

theorem id_of_point? {id : String} {p : Point K} (h : f.point? id = some p) : p.id = id := by
  simpa using List.find?_some h

end Figure

end RulerCompass
