import DiffGate.Text.Blank
import DiffGate.Text.Digit

/-!
# Clean messages

A linter's message may hold line breaks and may end in a tag that only tools read: `baidu` and three
digits, or a rule code in brackets. The breaks are deleted first, which may bring a tag together;
then one tag is cut off, with the blanks before it. A second tag that this uncovers stays.

Whether a text ends in a tag is asked of the reversed text, where the tag comes first: no choice is
left there, because a bracketed code's digits, letters and bracket exclude each other.
-/

set_option autoImplicit false

namespace DiffGate.Message

/-- The text without its line breaks. -/
def unbroken (t : Text) : Text := t.filter fun c => c != '\r' && c != '\n'

/-- From the reversed text, what is left of a bracketed code of letters and digits at its front. -/
def dropCode? (reversed : Text) : Option Text :=
  match reversed with
  | ']' :: rest =>
    match rest.span Text.isDecimal with
    | ([], _) => none
    | (_, rest) =>
      match rest.span Text.isAsciiLetter with
      | ([], _) => none
      | (_, '[' :: rest) => some rest
      | _ => none
  | _ => none

/-- From the reversed text, what is left of the older tag at its front. -/
def dropOlderTag? (reversed : Text) : Option Text :=
  match reversed with
  | a :: b :: c :: rest =>
    if Text.isDecimal a && Text.isDecimal b && Text.isDecimal c then
      Text.after? "udiab".toList rest
    else none
  | _ => none

/-- The text without one tag at its end and the blanks before that. -/
def withoutTag (t : Text) : Text :=
  match (dropCode? t.reverse).or (dropOlderTag? t.reverse) with
  | some rest => (rest.dropWhile Text.isBlank).reverse
  | none => t

/-- A message as it is shown. -/
def clean (t : Text) : Text := withoutTag (unbroken t)

end DiffGate.Message
