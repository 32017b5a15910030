import KeyOrder.Container.Basic

/-!
# Names of entries

The name that an entry is sorted by, where it has one that is known without running the program:
the value of a constant key, the text of a formatted string without fields, or a keyword.
Integral floats are named by the integer that they equal, and other constants as they are
displayed.
-/

namespace KeyOrder

/-- The name of a constant key.  An integer of too many digits has none. -/
def Constant.name : Constant → Outcome Name
  | string s => .ok s
  | bytes b => .ok (Quoted.bytes b)
  | integer n =>
    let digits := toString n
    if digitLimit < digits.length then .error .integerTooLong else .ok (codePoints digits)
  | float x =>
    match x.toNat? with
    | .some n => .ok (codePoints (toString n))
    | .none => .ok (codePoints (FloatNotation.standard.write x))
  | imaginary x => .ok (codePoints (FloatNotation.imaginary.write x ++ "j"))
  | boolean b => .ok (codePoints (if b then "True" else "False"))
  | none => .ok (codePoints "None")
  | ellipsis => .ok (codePoints "Ellipsis")

/-- The text of a formatted string whose parts are all literal. -/
def templateText? (parts : List Node) : Option Name :=
  (parts.mapM literal?).map List.flatten
where
  /-- The text of a literal part. -/
  literal? : Node → Option Name
    | .mk (.constant (.string s)) _ _ => some s
    | _ => none

/-- The name of an entry, where it has one. -/
def Entry.name (e : Entry) : Outcome (Option Name) :=
  match e.key with
  | some (.keyword n) => .ok (some n)
  | some (.expression (.mk (.constant c) _ _)) => c.name.map some
  | some (.expression (.mk .template _ parts)) => .ok (templateText? parts)
  | _ => .ok none

end KeyOrder
