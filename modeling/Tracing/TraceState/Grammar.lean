import Tracing.Text.Bytes

/-!
# Keys and values of list members

A member of a trace state is a key and a value. A key is a name of lower-case letters, digits and a few
marks, or such a name for a tenant, an at sign and a short name for a system. A value is printable text of the
seven-bit code without the two separators of the list, which does not end in a space. Both take at most 256
bytes.
-/

namespace Tracing.TraceState

open Text

/-- The most bytes that a key or a value may take. -/
def maxTextLength : Nat := 256

/-- The longest name of a system after the at sign of a key. -/
def maxSystemLength : Nat := 13

/-- A lower-case letter or a digit: what a name may begin with. -/
def isNameStart (c : Char) : Bool := ('a' ≤ c && c ≤ 'z') || ('0' ≤ c && c ≤ '9')

/-- A character of a name. -/
def isNameChar (c : Char) : Bool :=
  isNameStart c || c == '_' || c == '-' || c == '*' || c == '/'

/-- The name of a system, which ends a key. -/
def isSystem : List Char → Bool
  | [] => false
  | c :: cs => isNameStart c && cs.all isNameChar && decide (cs.length < maxSystemLength)

/-- The rest of a key after its first character: a name, or a name, an at sign and a system. -/
def isKeyRest : List Char → Bool
  | [] => true
  | c :: cs => if c = '@' then isSystem cs else isNameChar c && isKeyRest cs

/-- The key of a list member. -/
def isKey : List Char → Bool
  | [] => false
  | c :: cs => decide (byteLength (c :: cs) ≤ maxTextLength) && isNameStart c && isKeyRest cs

/-- A character of a value. -/
def isValueChar (c : Char) : Bool := ' ' ≤ c && c ≤ '~' && c != ',' && c != '='

/-- The value of a list member. -/
def isValue (cs : List Char) : Bool :=
  cs != [] && decide (byteLength cs ≤ maxTextLength) && cs.all isValueChar && cs.getLast? != some ' '

end Tracing.TraceState
