/-!
# ClipRelay.Http.MediaType

Media types, as far as the relay needs them: whether a body is JSON.

A media type is `type/subtype`, in either case, with parameters after
semicolons; a subtype may end in a plus sign and a suffix.
-/

namespace ClipRelay.Http.MediaType

/-- The characters of a token. -/
def isTokenChar (c : Char) : Bool :=
  c.isAlphanum || "!#$%&'*+-.^_\x60|~".toList.contains c

/-- Whether a text consists of one or more characters of a token. -/
def isToken (cs : List Char) : Bool := !cs.isEmpty && cs.all isTokenChar

/-- The rest behind the closing mark of a quoted value. -/
def afterQuoted? : List Char → Option (List Char)
  | [] => none
  | '"' :: rest => some rest
  | ['\\'] => none
  | '\\' :: _ :: rest => afterQuoted? rest
  | c :: rest => if c.toNat < 0x20 || c.toNat == 0x7F then none else afterQuoted? rest

/-- Whether a text is a row of parameters, each behind its semicolon.  Every
round takes a character, so the length of the text is fuel enough. -/
def parametersValid : Nat → List Char → Bool
  | 0, _ => false
  | fuel + 1, cs =>
    match cs.dropWhile (· == ' ') with
    | [] => true
    | cs =>
      isToken (cs.takeWhile (· != '=')) &&
      match (cs.dropWhile (· != '=')).drop 1, cs.contains '=' with
      | _, false => false
      | '"' :: rest, true =>
        match afterQuoted? rest with
        | none => false
        | some rest =>
          match rest.dropWhile (· == ' ') with
          | [] => true
          | ';' :: rest => parametersValid fuel rest
          | _ => false
      | rest, true =>
        let value := rest.takeWhile (· != ';')
        value.all isTokenChar &&
        match rest.dropWhile (· != ';') with
        | [] => true
        | _ :: rest => !value.isEmpty && parametersValid fuel rest

/-- Whether a subtype means JSON: it is `json`, apart from a suffix, or its
suffix is. -/
def subtypeIsJson (subtype : List Char) : Bool :=
  let json := "json".toList
  match (subtype.drop 1).reverse.dropWhile (· != '+') with
  | [] => subtype == json
  | _ :: body =>
    subtype.take 1 ++ body.reverse == json ||
      (subtype.reverse.takeWhile (· != '+')).reverse == json

/-- Whether a media type means JSON. -/
def isJson (s : String) : Bool :=
  let cs := s.toList.map Char.toLower
  let type := cs.takeWhile (· != '/')
  let rest := (cs.dropWhile (· != '/')).drop 1
  let subtype := rest.takeWhile (· != ';')
  cs.contains '/' && isToken type && isToken subtype &&
    parametersValid (rest.length + 1) ((rest.dropWhile (· != ';')).drop 1) &&
    type == "application".toList && subtypeIsJson subtype

end ClipRelay.Http.MediaType
