/-
Module: Webtor.Consensus.HttpFetch
Purpose: the native `ConsensusManager::http_fetch`: parse the URL, connect to `host:port`,
  send a `GET` request, read the whole response as a string, and skip the headers up to the
  first `\r\n\r\n`. `skipHttpHeaders_spec` says what the header skip returns for every
  response: the text after the first blank line, or the `Invalid HTTP response` error when
  there is none; it never slices off a character boundary. The wasm `http_fetch` asks the
  browser's `fetch` instead and rejects a response whose `ok()` is false.
Trusted boundary: `url::Url::parse` and the socket calls are parameters (`NativeNet`), each an
  error text or a value; `read_to_string` hands back a `String`, valid UTF-8 by its type. The
  `web_sys` calls of the wasm backend are parameters too (`BrowserNet`): which `Response` the
  browser hands back (after the redirects it follows by default, or a CORS refusal) is any
  outcome of `fetch`, so no browser behaviour is assumed.
Main exports: UrlView, NativeNet, readResponse, skipHttpHeaders, httpFetch, bodyAfterBlankLine,
  skipHttpHeaders_spec, BrowserResponse, BrowserNet, Wasm.httpFetch
-/
import Webtor.Consensus.Types
import Webtor.Text.Search

namespace Webtor.Consensus

open Webtor.Text

/-- What `http_fetch` reads of a parsed `url::Url`: `host_str()`, `port()` and `path()`. -/
structure UrlView where
  hostStr : Option String
  port : Option UInt16
  path : String

/-- The outcomes of the calls the native `http_fetch` makes, each an error text or a value:
`Url::parse`, `TcpStream::connect` on the address, `set_read_timeout`, `write_all` of the
request's bytes, and `read_to_string` of the whole response. -/
structure NativeNet where
  urlParse : String → Except String UrlView
  connect : String → Except String Unit
  setReadTimeout : String → Duration → Except String Unit
  writeAll : String → List UInt8 → Except String Unit
  readToString : String → List UInt8 → Except String String

/-- The request `http_fetch` writes. -/
def httpRequest (path host : String) : String :=
  "GET " ++ path ++ " HTTP/1.0\r\nHost: " ++ host ++ "\r\nConnection: close\r\n\r\n"

/-- `http_fetch` up to `read_to_string`: each failing step is a consensus-fetch error naming
the step. -/
def readResponse (net : NativeNet) (url : String) : Except TorError String := do
  let urlParsed ← (net.urlParse url).mapError fun e => .consensusFetch ("Invalid URL: " ++ e)
  let host ← match urlParsed.hostStr with
    | some host => pure host
    | none => throw (.consensusFetch "No host in URL")
  let port := urlParsed.port.getD 80
  let addr := host ++ ":" ++ toString port
  (net.connect addr).mapError fun e => .consensusFetch ("Connection failed: " ++ e)
  (net.setReadTimeout addr (Duration.fromSecs 60)).mapError
    fun e => .consensusFetch ("Failed to set timeout: " ++ e)
  let request := asBytes (httpRequest urlParsed.path host)
  (net.writeAll addr request).mapError fun e => .consensusFetch ("Write failed: " ++ e)
  (net.readToString addr request).mapError fun e => .consensusFetch ("Read failed: " ++ e)

/-- The header skip of `http_fetch`: `response[body_start + 4..]` after the first `\r\n\r\n`
that `str::find` reports, or the `Invalid HTTP response` error. `none` is the panic of a
slice past the end or off a character boundary. -/
def skipHttpHeaders (response : String) : Option (Except TorError String) :=
  match strFind response "\r\n\r\n" with
  | some bodyStart => (strSliceFrom response.data (bodyStart + 4)).map fun body => .ok ⟨body⟩
  | none => some (.error (.consensusFetch "Invalid HTTP response"))

/-- The native `http_fetch`; `none` is a panic. -/
def httpFetch (net : NativeNet) (url : String) : Option (Except TorError String) :=
  match readResponse net url with
  | .error e => some (.error e)
  | .ok response => skipHttpHeaders response

/-- The wire contract's body: the text after the first blank line `\r\n\r\n`, found among the
characters. -/
def bodyAfterBlankLine (payload : String) : Option String :=
  (findSub "\r\n\r\n".data payload.data).map fun i => ⟨payload.data.drop (i + 4)⟩

/-! ### The header skip -/

theorem blankLine_ascii : IsAscii "\r\n\r\n".data := by decide

/-- The bytes of the four separator characters are the four bytes `\r\n\r\n`. -/
theorem asBytes_blankLine : asBytes "\r\n\r\n" = [13, 10, 13, 10] := by decide

/-- `str::find` of the blank line is the byte offset of its first match among the
characters. -/
theorem strFind_blankLine (payload : String) :
    strFind payload "\r\n\r\n" =
      (findSub "\r\n\r\n".data payload.data).map fun i =>
        (encodeChars (payload.data.take i)).length :=
  findSub_encodeChars blankLine_ascii (by decide) payload.data

/-- The native header skip never panics: it returns the body after the first blank line, or
the `Invalid HTTP response` error when the response has none. -/
theorem skipHttpHeaders_spec (response : String) :
    skipHttpHeaders response = some (match bodyAfterBlankLine response with
      | some body => .ok body
      | none => .error (.consensusFetch "Invalid HTTP response")) := by
  rw [skipHttpHeaders, strFind_blankLine, bodyAfterBlankLine]
  cases found : findSub "\r\n\r\n".data response.data with
  | none => rfl
  | some i =>
      have after := encodeChars_take_after_match blankLine_ascii (match_of_findSub_eq_some found)
      simp only [Option.map_some']
      rw [show (encodeChars (response.data.take i)).length + 4 =
          (encodeChars (response.data.take (i + 4))).length from after.symm, strSliceFrom_take]
      rfl

/-! ### The wasm `http_fetch` -/

/-- A `Response` as the wasm `http_fetch` reads it: `ok()` and `status()`, then the outcome of
`text()`, of awaiting its promise, and of `as_string` on the value. A JS error is its `{:?}`
rendering. -/
structure BrowserResponse where
  ok : Bool
  status : UInt16
  text : Except String Unit
  body : Except String (Option String)

/-- The outcomes of the `web_sys` calls the wasm `http_fetch` makes: `Request::new_with_str_and_init`
on the URL, `web_sys::window()`, and `fetch_with_request` awaited and cast with `dyn_into`, which
gives `none` when the value is not a `Response`. -/
structure BrowserNet where
  newRequest : String → Except String Unit
  window : Bool
  fetch : String → Except String (Option BrowserResponse)

/-- The wasm `http_fetch`: each failing step is a consensus-fetch error naming it, and a
response whose `ok()` is false is an `HTTP error` with its status. -/
def Wasm.httpFetch (net : BrowserNet) (url : String) : Except TorError String := do
  (net.newRequest url).mapError fun e => .consensusFetch ("Failed to create request: " ++ e)
  if !net.window then throw (.consensusFetch "No window object")
  let respValue ← (net.fetch url).mapError fun e => .consensusFetch ("Fetch failed: " ++ e)
  let resp ← match respValue with
    | some resp => pure resp
    | none => throw (.consensusFetch "Response is not a Response object")
  if !resp.ok then throw (.consensusFetch ("HTTP error: " ++ toString resp.status))
  resp.text.mapError fun e => .consensusFetch ("Failed to get text: " ++ e)
  let text ← resp.body.mapError fun e => .consensusFetch ("Failed to read body: " ++ e)
  match text with
  | some text => pure text
  | none => throw (.consensusFetch "Response is not a string")

end Webtor.Consensus
