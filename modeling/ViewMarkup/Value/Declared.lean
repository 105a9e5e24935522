import ViewMarkup.Json.Reader
import ViewMarkup.Value.Braced
import ViewMarkup.Value.Reference

namespace ViewMarkup

/-- Reads the value of a declaration. Braces are an expression only where they are not JSON, and a long
integer is an error even inside braces. -/
def Value.declared (t : Text) : Except JsonError Value :=
  let t := Text.trim t
  if isReference t then .ok (.expression t)
  else match Json.read (Text.replaceChar '\'' '"' t) with
    | .ok value => .ok (.literal value)
    | .error (.integerTooLong digits) => .error (.integerTooLong digits)
    | .error error =>
      match braced? t with
      | some raw => .ok (.expression raw)
      | none => .error error

end ViewMarkup
