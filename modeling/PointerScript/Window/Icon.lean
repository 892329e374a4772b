/-! Small pictures for buttons. -/

namespace PointerScript

inductive Stroke where
  | brush (colour : String)
  | ellipse (x y width height : Int)
  | polygon (corners : List (Int × Int))
  deriving DecidableEq

namespace Icon

def defaultSize : Int := 14

/-- A filled circle, a triangle that points to the right, or nothing for another shape. -/
def draw (colour shape : String) (size : Int) : List Stroke :=
  .brush colour ::
    if shape = "circle" then [.ellipse 0 0 size size]
    else if shape = "triangle" then
      [.polygon [(2, 2), (size - 2, Int.fdiv size 2), (2, size - 2)]]
    else []

/-- A circle that is blue when something is on. -/
def eye (on : Bool) (size : Int) : List Stroke :=
  draw (if on then "#0070cc" else "#999999") "circle" size

end Icon

end PointerScript
