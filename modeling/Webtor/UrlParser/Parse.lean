/-
Module: Webtor.UrlParser.Parse
Purpose: `Url::parse` of the `url` crate without a base URL, for the special schemes other than
  `file` (`http`, `https`, `ws`, `wss`, `ftp`): trim and strip tabs and newlines, read the
  scheme, skip the slashes, drop the userinfo up to the last `@`, read the host up to a `:`
  outside brackets, the port up to the path, and the path segment by segment, percent-encoding
  each character and resolving `.` and `..` segments. Also the accessors `to_wss_url` reads:
  `scheme()`, `host_str()`, `port()`, `port_or_known_default()` and `path()`.
Trusted boundary: the `url` crate is not under src/; the parser is modelled from the URL
  Standard's basic URL parser as the crate writes it (`Parser::parse_url` and the functions it
  calls). The `file` scheme and the non-special schemes are a parameter (`otherSchemes`), as
  are the username, password, query and fragment, which `to_wss_url` does not read and which
  cannot make a parse fail.
Main exports: defaultPort, SchemeType, UrlPath, Url, preprocess, parseScheme, afterLastAt,
  specialAuthority, scanHost, parsePort, parsePortAfterHost, percentEncodePath, finishSegment,
  parsePath, pathStart, parseSpecial, Url.parse
-/
import Webtor.UrlParser.Host

namespace Webtor.UrlParser

open Webtor.Text

/-- `default_port`. -/
def defaultPort (scheme : String) : Option UInt16 :=
  match scheme with
  | "http" => some 80
  | "https" => some 443
  | "ws" => some 80
  | "wss" => some 443
  | "ftp" => some 21
  | _ => none

/-- `SchemeType`. -/
inductive SchemeType where
  | file
  | specialNotFile
  | notSpecial
deriving DecidableEq

/-- `SchemeType::from`. -/
def SchemeType.ofScheme (scheme : String) : SchemeType :=
  match scheme with
  | "http" | "https" | "ws" | "wss" | "ftp" => .specialNotFile
  | "file" => .file
  | _ => .notSpecial

/-- A URL's path: segments (`/` before each), or the opaque path of a non-special URL. -/
inductive UrlPath where
  | segments (segs : List String)
  | opaquePath (text : String)
deriving DecidableEq

/-- The parts of a `url::Url` that `to_wss_url` reads. -/
structure Url where
  scheme : String
  host : Option Host
  port : Option UInt16
  path : UrlPath
deriving DecidableEq

/-- `host_str()`. -/
def Url.hostStr (url : Url) : Option String := url.host.map fun host => ⟨host.serialize⟩

/-- `port_or_known_default()`. -/
def Url.portOrKnownDefault (url : Url) : Option UInt16 :=
  match url.port with
  | some port => some port
  | none => defaultPort url.scheme

/-- The characters of `path()`. -/
def UrlPath.serialize : UrlPath → List Char
  | .segments segs => segs.flatMap fun seg => '/' :: seg.data
  | .opaquePath text => text.data

/-- `path()`. -/
def Url.pathStr (url : Url) : String := ⟨url.path.serialize⟩

/-! ### Reading the input -/

/-- A C0 control or a space, trimmed from both ends of the input. -/
def isC0ControlOrSpace (c : Char) : Bool := c.toNat ≤ 0x20

/-- A tab or newline, skipped wherever it stands. -/
def isAsciiTabOrNewline (c : Char) : Bool := c = '\t' || c = '\n' || c = '\r'

/-- `Input::new`: trim C0 controls and spaces from both ends, and drop every tab and newline. -/
def preprocess (input : String) : List Char :=
  ((input.data.dropWhile isC0ControlOrSpace).reverse.dropWhile isC0ControlOrSpace).reverse.filter
    fun c => !isAsciiTabOrNewline c

/-- A character of a scheme after the first. -/
def isSchemeChar (c : Char) : Bool := c.isAlphanum || c = '+' || c = '-' || c = '.'

/-- The loop of `parse_scheme`: scheme characters, lower-cased, up to the `:`. -/
def schemeChars : List Char → Option (List Char × List Char)
  | [] => none
  | ':' :: rest => some ([], rest)
  | c :: rest =>
      if isSchemeChar c then (schemeChars rest).map fun (scheme, after) => (c.toLower :: scheme, after)
      else none

/-- `parse_scheme`: an ASCII letter, then scheme characters up to `:`. -/
def parseScheme : List Char → Option (String × List Char)
  | [] => none
  | c :: rest =>
      if c.isAlpha then (schemeChars (c :: rest)).map fun (scheme, after) => (⟨scheme⟩, after)
      else none

/-- A character that ends the authority of a special URL. -/
def isSpecialAuthorityEnd (c : Char) : Bool := c = '/' || c = '?' || c = '#' || c.toNat = 0x5C

/-- `parse_userinfo`: the input after the last `@` before the end of the authority, or `none`
when the authority has no `@`. -/
def afterLastAt : List Char → Option (List Char)
  | [] => none
  | c :: rest =>
      if isSpecialAuthorityEnd c then none
      else
        match afterLastAt rest with
        | some after => some after
        | none => if c = '@' then some rest else none

/-- The scan of `parse_host`: the host text ends at a `:` outside brackets, or at the end of
the authority. -/
def scanHost (insideBrackets : Bool) : List Char → List Char × List Char
  | [] => ([], [])
  | c :: rest =>
      if (c = ':' && !insideBrackets) || isSpecialAuthorityEnd c then ([], c :: rest)
      else
        let (host, after) :=
          scanHost (if c = '[' then true else if c = ']' then false else insideBrackets) rest
        (c :: host, after)

/-- `parse_port`: decimal digits up to the path; above 65535, or a stray character, is an
error. A port equal to the scheme's default, or no digit at all, is no port. -/
def parsePort (default : Option UInt16) (port : Nat) (hasDigit : Bool) :
    List Char → Except ParseError (Option UInt16 × List Char)
  | [] => .ok (if !hasDigit || some port.toUInt16 = default then none else some port.toUInt16, [])
  | c :: rest =>
      match decValue c with
      | some digit =>
          if 65535 < port * 10 + digit then .error .invalidPort
          else parsePort default (port * 10 + digit) true rest
      | none =>
          if isSpecialAuthorityEnd c then
            .ok (if !hasDigit || some port.toUInt16 = default then none else some port.toUInt16,
              c :: rest)
          else .error .invalidPort

/-! ### The path -/

/-- The `PATH` percent-encode set on ASCII: the controls, space, `"`, `#`, `<`, `>`, `?`,
the backquote, `{` and `}`. -/
def inPathSet (c : Char) : Bool :=
  c.toNat < 0x20 || c.toNat = 0x7F || c = ' ' || c.toNat = 0x22 || c = '#' || c = '<' ||
    c = '>' || c = '?' || c.toNat = 0x60 || c.toNat = 0x7B || c.toNat = 0x7D

/-- An upper-case hexadecimal digit. -/
def upperHexDigit (n : Nat) : Char := if n < 10 then Char.ofNat (48 + n) else Char.ofNat (55 + n)

/-- `utf8_percent_encode(c, PATH)`: every byte of a non-ASCII character, or of one in the set,
as `%XX`. -/
def percentEncodePath (c : Char) : List Char :=
  if c.toNat < 0x80 && !inPathSet c then [c]
  else (encodeUtf8 c).flatMap fun b => ['%', upperHexDigit (b.toNat / 16), upperHexDigit (b.toNat % 16)]

/-- The spellings of a `.` segment. -/
def singleDotSegments : List String := [".", "%2e", "%2E"]

/-- The spellings of a `..` segment. -/
def doubleDotSegments : List String :=
  ["..", ".%2e", ".%2E", "%2e.", "%2E.", "%2e%2e", "%2e%2E", "%2E%2e", "%2E%2E"]

/-- The end of a segment, at a slash (`slash`) or at the end of the path: `..` removes the
last segment, `.` is dropped, anything else is appended; at the end of the path a dot segment
leaves an empty last segment. -/
def finishSegment (path : List String) (buffer : List Char) (slash : Bool) : List String :=
  if doubleDotSegments.any (·.data = buffer) then
    if slash then path.dropLast else path.dropLast ++ [""]
  else if singleDotSegments.any (·.data = buffer) then
    if slash then path else path ++ [""]
  else path ++ [⟨buffer⟩]

/-- `parse_path` for a special URL: `/` and `\` end a segment, `?` and `#` end the path. -/
def parsePath (path : List String) (buffer : List Char) : List Char → List String
  | [] => finishSegment path buffer false
  | c :: rest =>
      if c = '/' || c.toNat = 0x5C then parsePath (finishSegment path buffer true) [] rest
      else if c = '?' || c = '#' then finishSegment path buffer false
      else parsePath path (buffer ++ percentEncodePath c) rest

/-! ### `Url::parse` -/

/-- The start of `after_double_slash`: the slashes are skipped, and the userinfo up to the last
`@` of the authority dropped. -/
def specialAuthority (input : List Char) : List Char :=
  let afterSlashes := input.dropWhile fun c => c = '/' || c.toNat = 0x5C
  (afterLastAt afterSlashes).getD afterSlashes

/-- The port after the host: `:` and a port, or no port. -/
def parsePortAfterHost (scheme : String) : List Char → Except ParseError (Option UInt16 × List Char)
  | ':' :: rest => parsePort (defaultPort scheme) 0 false rest
  | afterHost => .ok (none, afterHost)

/-- `parse_path_start`: a leading `/` or backslash starts the path. -/
def pathStart : List Char → List Char
  | c :: rest => if c = '/' || c.toNat = 0x5C then rest else c :: rest
  | [] => []

/-- `after_double_slash` with `parse_path_start`: the rest of a special URL after its scheme. -/
def parseSpecial (idna : Idna) (scheme : String) (input : List Char) : Except ParseError Url :=
  let (hostText, afterHost) := scanHost false (specialAuthority input)
  if hostText = [] then .error .emptyHost
  else do
    let host ← Host.parse idna hostText
    let (port, afterPort) ← parsePortAfterHost scheme afterHost
    pure ⟨scheme, some host, port, .segments (parsePath [] [] (pathStart afterPort))⟩

/-- `Url::parse`. `otherSchemes` parses the rest of a `file` or non-special URL; the scheme it
was given is kept. -/
def Url.parse (idna : Idna) (otherSchemes : String → List Char → Except ParseError Url)
    (input : String) : Except ParseError Url :=
  match parseScheme (preprocess input) with
  | none => .error .relativeUrlWithoutBase
  | some (scheme, rest) =>
      match SchemeType.ofScheme scheme with
      | .specialNotFile => parseSpecial idna scheme rest
      | _ => (otherSchemes scheme rest).map fun url => { url with scheme := scheme }

example : (Url.parse asciiIdna (fun _ _ => .error .relativeUrlWithoutBase)
    " HTTPS://user@example.com:0443/a/./b/../c%2e/d e?q#f ").map
      (fun url => (url.scheme, url.hostStr, url.port, url.pathStr)) =
    .ok ("https", some "example.com", none, "/a/c%2e/d%20e") := by decide

end Webtor.UrlParser
