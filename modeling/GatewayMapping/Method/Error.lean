import GatewayMapping.Value.Basic

/-!
# Why a method gives no value

A method is known by its name and by the number and kinds of its arguments. Either no method fits,
or the one that fits fails for a reason.
-/

namespace GatewayMapping

/-- Why a method that fits fails. -/
inductive MethodFault where
  | substring (first last length : Int)
  | character (index length : Int)
  | item (index length : Int)
  | subList (first last length : Int)
  /-- A text that is to be a regular expression and is none. -/
  | pattern (text : String)
  deriving DecidableEq, Repr, Inhabited

/-- The wording of a fault. -/
def MethodFault.message : MethodFault → String
  | .substring first last length =>
    "begin " ++ toString first ++ ", end " ++ toString last ++ ", length " ++ toString length
  | .character index length => "index " ++ toString index ++ ", length " ++ toString length
  | .item index length =>
    "Index " ++ toString index ++ " out of bounds for length " ++ toString length
  | .subList first last length =>
    "fromIndex " ++ toString first ++ ", toIndex " ++ toString last ++ ", size " ++
      toString length
  | .pattern text =>
    "invalid regular expression '" ++ text ++ "': regex parse error"

/-- Why a method gives no value. -/
inductive MethodError where
  | notFound
  | failed (fault : MethodFault)
  deriving DecidableEq, Repr, Inhabited

/-- The value of a method with the heap after it, or why there is none. -/
abbrev MethodResult := Except MethodError (Value × Heap)

end GatewayMapping
