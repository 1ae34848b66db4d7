import RulerCompass.Crossing.Search
import RulerCompass.Ledger.Fact

/-!
# Definition 15

All points of a circle are equally far from its centre.  A point marked at a crossing lies on those
of its parents that are circles, so it is as far from each centre as the point that gave the radius.
-/

namespace RulerCompass.Crossing

variable {K : Type}

/-- What Definition 15 says about the point `marked` on the circle `circleId`. -/
def onCircle (circleId center rim marked : String) (centerLabel rimLabel markedLabel : String) :
    Assertion where
  equation := .distances (.between center marked) (.between center rim)
  citation := .def15 circleId
  statement := centerLabel ++ markedLabel ++ " = " ++ centerLabel ++ rimLabel
  justification := "Def.15: " ++ markedLabel ++ " lies on circle centered at " ++ centerLabel ++
    " through " ++ rimLabel

/-- What Definition 15 says about the point marked at a crossing, for each parent that is a circle
of the figure. -/
def radiusAssertions (c : Crossing K) (marked : String) (f : Figure K) : List Assertion :=
  [c.ofA, c.ofB].filterMap fun parent =>
    (f.circle? parent).map fun d =>
      onCircle d.id d.centerId d.radiusPointId marked
        (f.labelOf d.centerId) (f.labelOf d.radiusPointId) (f.labelOf marked)

end RulerCompass.Crossing
