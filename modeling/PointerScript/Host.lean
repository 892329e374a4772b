import PointerScript.Json.Shown
import PointerScript.Tool.KeyCode

/-! What the program finds where it runs and does not decide itself. -/

namespace PointerScript

/-- Whether a value is neither an array nor an object. -/
def Json.isFlat : Json → Bool
  | arr _ | obj _ => false
  | _ => true

/-- Where a writer gives up, counted in pieces, and what it says then. -/
structure Cut where
  pieces : Nat
  message : String

/-- The runtime and the window system. -/
structure Host where
  /-- The names that every table knows without having entries for them. -/
  builtinNames : List String
  /-- How many arrays and objects may stand inside each other in JSON text. -/
  depthLimit : Nat
  /-- Whether a value is not nested too deep to be written on one line. -/
  writesLine : Json → Bool
  /-- Where the writer with one item to a line gives up on a value that is nested too deep. -/
  cut? : Json → Option Cut
  /-- The codes that are keys. -/
  keys : List Int
  /-- The name that is shown for a key. -/
  keyName : Json → String
  builtin_marked : ∀ name ∈ builtinNames, "__".toList.isPrefixOf name.toList = true ∨ name = "mro"
  depthLimit_pos : 0 < depthLimit
  writesLine_flat : ∀ json, json.isFlat = true → writesLine json = true
  cut?_flat : ∀ entries, (∀ entry ∈ entries, entry.2.isFlat = true) → cut? (.obj entries) = none

namespace Host

/-- A host that writes every value that it can read, and has no keys but those the program has to do with. -/
def plain : Host where
  builtinNames :=
    ["__annotations__", "__base__", "__bases__", "__basicsize__", "__call__", "__class__", "__delattr__",
      "__dict__", "__dictoffset__", "__dir__", "__doc__", "__eq__", "__flags__", "__format__", "__ge__",
      "__getattribute__", "__getstate__", "__gt__", "__hash__", "__init__", "__init_subclass__",
      "__instancecheck__", "__itemsize__", "__le__", "__lt__", "__module__", "__mro__", "__name__",
      "__ne__", "__new__", "__or__", "__prepare__", "__qualname__", "__reduce__", "__reduce_ex__",
      "__repr__", "__ror__", "__setattr__", "__sizeof__", "__str__", "__subclasscheck__",
      "__subclasses__", "__subclasshook__", "__text_signature__", "__weakref__", "__weakrefoffset__",
      "mro"]
  depthLimit := 980
  writesLine _ := true
  cut? _ := none
  keys :=
    KeyCode.specialCodes.map (·.1) ++ [0x1000003] ++ ((List.range 26).map fun n : Nat => (65 + n : Int)) ++
      ((List.range 10).map fun n : Nat => (48 + n : Int)) ++ KeyCode.symbols.map fun c => (c.toNat : Int)
  keyName key := "Key" ++ key.text
  builtin_marked := by decide
  depthLimit_pos := by decide
  writesLine_flat _ _ := rfl
  cut?_flat _ _ := rfl

def key? (host : Host) (n : Number) : Option Int :=
  host.keys.find? fun code => n.eqv (.int code)

end Host

end PointerScript
