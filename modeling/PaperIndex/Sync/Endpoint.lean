import PaperIndex.Error
import PaperIndex.Text.Blank
import PaperIndex.Text.Pieces

/-! # Endpoints of servers

Endpoints are kept without blanks around them and without slashes at their end. They are `http` or
`https` URLs with a host. -/

namespace PaperIndex.Endpoint

/-- What follows the scheme of an endpoint. -/
def afterScheme? (s : String) : Option String :=
  (Text.after? "https://" s).or (Text.after? "http://" s)

/-- The characters of a text before its first slash. -/
def host (s : String) : List Char := s.toList.takeWhile (· != '/')

/-- The form in which an endpoint is kept. -/
def normalize (s : String) : Except InputFault String :=
  let trimmed := Text.trimEndSlashes (Text.trim s)
  match afterScheme? trimmed with
  | none => .error (.endpointScheme s)
  | some rest =>
    let host := host rest
    if host.isEmpty || host.any Text.isBlank then .error (.endpointHost s) else .ok trimmed

end PaperIndex.Endpoint
