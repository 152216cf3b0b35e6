/-
Module: Webtor.Directory
Purpose: `DirectoryManager::fetch_consensus` in `webtor/src/directory.rs`: open a one-hop
  directory stream over a channel, send the consensus request, read the whole response as
  bytes, skip the headers with `windows(4).position`, decode the body with
  `String::from_utf8_lossy` and hand it to `process_consensus`. `headerSkips_extract_body`
  compares this header skip with the native `http_fetch`'s for every response payload: both
  take the text after the first blank line and neither panics. On a payload without a blank
  line the paths differ: the tunnel path passes the whole payload on, as the directory wire
  contract asks of both paths, while the native path returns its `Invalid HTTP response` error
  (`httpFetch_rejects_headerless_response`). On any bytes, valid UTF-8 or not,
  `fetch_consensus` never panics and fails exactly when a channel step fails
  (`fetchConsensus_outcome`). On every well-formed HTTP response, whatever its status, both
  header skips hand on exactly its body (`headerSkips_read_body`).
Trusted boundary: the channel's steps (`new_tunnel`, `make_circ_params`,
  `create_firsthop_fast`, `begin_dir_stream`, `write_all`, `flush`, `read_to_end`) are
  parameters (`DirChannel`), each an error or a value.
Main exports: DirChannel, readDirResponse, consensusBody, processConsensus, fetchConsensus,
  consensusBody_spec, headerSkips_extract_body, consensusBody_some, fetchConsensus_outcome,
  httpFetch_rejects_headerless_response, HttpResponse, HttpResponse.serialize,
  bodyAfterBlankLine_serialize, headerSkips_read_body
-/
import Webtor.Consensus.HttpFetch

namespace Webtor.Directory

open Webtor.Text Webtor.Consensus

/-- The outcomes of the steps `fetch_consensus` takes on its channel. `make_circ_params`
(in `crate::circuit`, not under src/) is one of them, with its own error. -/
structure DirChannel where
  newTunnel : Except String Unit
  makeCircParams : Except TorError Unit
  createFirsthopFast : Except String Unit
  beginDirStream : Except String Unit
  writeAll : List UInt8 → Except String Unit
  flush : Except String Unit
  readToEnd : Except String (List UInt8)

/-- The document `fetch_consensus` asks for. -/
def consensusPath : String := "/tor/status-vote/current/consensus-microdesc"

/-- `fetch_consensus` up to `read_to_end`: circuit errors are internal, stream errors are
network errors. -/
def readDirResponse (channel : DirChannel) : Except TorError (List UInt8) := do
  channel.newTunnel.mapError fun e => .internal ("Failed to create pending tunnel for dir: " ++ e)
  channel.makeCircParams
  channel.createFirsthopFast.mapError fun e => .internal ("Failed to create dir circuit: " ++ e)
  channel.beginDirStream.mapError fun e => .internal ("Failed to begin dir stream: " ++ e)
  (channel.writeAll (asBytes (httpRequest consensusPath "directory"))).mapError
    fun e => .network ("Failed to write dir request: " ++ e)
  channel.flush.mapError fun e => .network ("Failed to flush dir request: " ++ e)
  channel.readToEnd.mapError fun e => .network ("Failed to read dir response: " ++ e)

/-- The header skip of `fetch_consensus`: the body starts four bytes past the first window
equal to `b"\r\n\r\n"`, or at 0 when there is none; `&response[body_start..]` is decoded by
`String::from_utf8_lossy`. `none` is the panic of a slice past the end. -/
def consensusBody (response : List UInt8) : Option String :=
  let bodyStart :=
    ((position (· == [13, 10, 13, 10]) (windows 4 response)).map (· + 4)).getD 0
  (bytesSliceFrom response bodyStart).map fun body => ⟨fromUtf8Lossy body⟩

/-- `process_consensus`: it logs the document and returns `Ok(0)`. -/
def processConsensus (_consensusStr : String) : Except TorError Nat := .ok 0

/-- `fetch_consensus`; `none` is a panic. -/
def fetchConsensus (channel : DirChannel) : Option (Except TorError Unit) :=
  match readDirResponse channel with
  | .error e => some (.error e)
  | .ok response =>
      (consensusBody response).map fun bodyStr => (processConsensus bodyStr).map fun _ => ()

/-! ### The header skip -/

/-- `windows(4).position` of the blank line's bytes is `str::find` of the blank line. -/
theorem position_blankLine (payload : String) :
    position (· == [13, 10, 13, 10]) (windows 4 (asBytes payload)) =
      strFind payload "\r\n\r\n" := by
  rw [strFind, asBytes_blankLine]
  exact position_windows (by decide) _

/-- On the bytes of a string, the tunnel header skip never panics: it passes the text after
the first blank line, or the whole payload when there is none. -/
theorem consensusBody_spec (payload : String) :
    consensusBody (asBytes payload) = some ((bodyAfterBlankLine payload).getD payload) := by
  rw [consensusBody, position_blankLine, strFind_blankLine, bodyAfterBlankLine]
  cases found : findSub "\r\n\r\n".data payload.data with
  | none =>
      simp only [Option.map_none', Option.getD_none, bytesSliceFrom, Nat.zero_le, if_true,
        List.drop_zero, asBytes, Option.map_some', fromUtf8Lossy_encodeChars]
  | some i =>
      have after := encodeChars_take_after_match blankLine_ascii (match_of_findSub_eq_some found)
      simp only [Option.map_some', Option.getD_some]
      rw [show (encodeChars (payload.data.take i)).length + 4 =
          (encodeChars (payload.data.take (i + 4))).length from after.symm, asBytes,
        bytesSliceFrom_take, Option.map_some', fromUtf8Lossy_encodeChars]

/-! ### The two header skips -/

/-- For every response payload: the native `http_fetch` returns the text after the first
blank line, or its `Invalid HTTP response` error when there is none; `fetch_consensus` passes
the text after the first blank line, or the whole payload, to `process_consensus` and
succeeds; neither panics. -/
theorem headerSkips_extract_body (payload : String) (net : NativeNet) (url : String)
    (channel : DirChannel) (native : readResponse net url = .ok payload)
    (tunnel : readDirResponse channel = .ok (asBytes payload)) :
    httpFetch net url = some (match bodyAfterBlankLine payload with
      | some body => .ok body
      | none => .error (.consensusFetch "Invalid HTTP response")) ∧
    consensusBody (asBytes payload) = some ((bodyAfterBlankLine payload).getD payload) ∧
    fetchConsensus channel = some (.ok ()) := by
  refine ⟨?_, consensusBody_spec payload, ?_⟩
  · simp only [httpFetch, native]
    exact skipHttpHeaders_spec payload
  · simp only [fetchConsensus, tunnel, consensusBody_spec]
    rfl

/-- A network on which every call succeeds and the response read is `payload`. -/
def echoNet (payload : String) : NativeNet where
  urlParse _ := .ok ⟨some "directory", none, consensusPath⟩
  connect _ := .ok ()
  setReadTimeout _ _ := .ok ()
  writeAll _ _ := .ok ()
  readToString _ _ := .ok payload

/-- A channel on which every step succeeds and the response read is the bytes of `payload`. -/
def echoChannel (payload : String) : DirChannel where
  newTunnel := .ok ()
  makeCircParams := .ok ()
  createFirsthopFast := .ok ()
  beginDirStream := .ok ()
  writeAll _ := .ok ()
  flush := .ok ()
  readToEnd := .ok (asBytes payload)

/-- On a response without a blank line the native `http_fetch` fails with its
`Invalid HTTP response` error, while `fetch_consensus` passes the whole payload on to
`process_consensus`, as the wire contract of both paths asks. -/
theorem httpFetch_rejects_headerless_response :
    httpFetch (echoNet "HTTP/1.0 200 OK") "http://directory/" =
        some (.error (.consensusFetch "Invalid HTTP response")) ∧
      consensusBody (asBytes "HTTP/1.0 200 OK") = some "HTTP/1.0 200 OK" ∧
      fetchConsensus (echoChannel "HTTP/1.0 200 OK") = some (.ok ()) :=
  ⟨rfl, rfl, rfl⟩

/-! ### On any bytes -/

/-- The tunnel header skip never panics, on any bytes (not only UTF-8): a blank line found by
`windows(4).position` ends at least four bytes before the end. -/
theorem consensusBody_some (response : List UInt8) : ∃ body, consensusBody response = some body := by
  have within : ((position (· == [13, 10, 13, 10]) (windows 4 response)).map (· + 4)).getD 0 ≤
      response.length := by
    rw [show windows 4 response = windows [(13 : UInt8), 10, 13, 10].length response from rfl,
      position_windows (by decide)]
    cases found : findSub [13, 10, 13, 10] response with
    | none => exact Nat.zero_le _
    | some i =>
        have fits := (match_of_findSub_eq_some found).length_le
        simp only [List.length_drop, List.length_cons, List.length_nil] at fits
        simp only [Option.map_some', Option.getD_some]
        omega
  exact ⟨_, by rw [consensusBody, bytesSliceFrom, if_pos within]; rfl⟩

/-- `fetch_consensus` never panics, whatever bytes the directory stream delivers: it succeeds
exactly when every step on the channel succeeds, and otherwise returns the error of the first
step that failed. -/
theorem fetchConsensus_outcome (channel : DirChannel) :
    fetchConsensus channel = some ((readDirResponse channel).map fun _ => ()) := by
  unfold fetchConsensus
  split
  · next e read => rw [read]; rfl
  · next response read =>
      obtain ⟨body, sliced⟩ := consensusBody_some response
      rw [read, sliced]
      rfl

example : fetchConsensus { echoChannel "" with readToEnd := .ok [0xff, 13, 10, 13, 10, 0xfe] } =
    some (.ok ()) :=
  rfl

/-! ### Well-formed responses -/

/-- An HTTP/1.x response as a server writes it: the status line and the header lines, none
holding a CR and no header line empty, each line ended by CRLF, then a blank line and the
body, which may hold anything. -/
structure HttpResponse where
  statusLine : String
  headers : List String
  body : String
  statusLine_clean : '\r' ∉ statusLine.data
  headers_clean : ∀ header ∈ headers, header.data ≠ [] ∧ '\r' ∉ header.data

/-- The CRLF and the text of each header line. -/
def headerLines (headers : List String) : List Char :=
  headers.flatMap fun header => '\r' :: '\n' :: header.data

/-- The response on the wire. -/
def HttpResponse.serialize (response : HttpResponse) : String :=
  ⟨response.statusLine.data ++ headerLines response.headers ++ "\r\n\r\n".data ++
    response.body.data⟩

/-- No match of a needle starting with CR starts inside a text without CR. -/
theorem findSub_cr_append {more : List Char} :
    ∀ {text : List Char}, '\r' ∉ text → ∀ rest : List Char,
      findSub ('\r' :: more) (text ++ rest) =
        (findSub ('\r' :: more) rest).map (· + text.length)
  | [], _, rest => by simp
  | c :: text, clean, rest => by
      have notCr : c ≠ '\r' := fun cr => clean (cr ▸ List.mem_cons_self _ _)
      rw [List.cons_append, findSub, if_neg (by simp [List.cons_prefix_cons, Ne.symm notCr]),
        findSub_cr_append (fun member => clean (List.mem_cons_of_mem _ member)) rest,
        Option.map_map]
      congr 1

/-- The first blank line after the header lines is the one that ends them. -/
theorem findSub_headerLines :
    ∀ {headers : List String}, (∀ header ∈ headers, header.data ≠ [] ∧ '\r' ∉ header.data) →
      ∀ body : List Char,
        findSub "\r\n\r\n".data (headerLines headers ++ "\r\n\r\n".data ++ body) =
          some (headerLines headers).length
  | [], _, body => by simp [headerLines, findSub, List.prefix_append]
  | header :: headers, clean, body => by
      obtain ⟨nonempty, noCr⟩ := clean header (List.mem_cons_self _ _)
      obtain ⟨c, text, spelled⟩ := List.exists_cons_of_ne_nil nonempty
      have notCr : c ≠ '\r' := fun cr => noCr (by rw [spelled, cr]; exact List.mem_cons_self _ _)
      have rest := findSub_headerLines
        (fun other member => clean other (List.mem_cons_of_mem _ member)) body
      have lines : headerLines (header :: headers) =
          '\r' :: '\n' :: (c :: text ++ headerLines headers) := by
        simp [headerLines, spelled]
      have needle : "\r\n\r\n".data = ['\r', '\n', '\r', '\n'] := rfl
      rw [needle] at rest
      rw [needle, lines]
      simp only [List.cons_append, List.append_assoc, List.nil_append] at rest ⊢
      rw [findSub, if_neg (by simp [List.cons_prefix_cons, Ne.symm notCr]), findSub,
        if_neg (by simp [List.cons_prefix_cons]), ← List.cons_append,
        findSub_cr_append (spelled ▸ noCr), rest]
      simp only [Option.map_some', List.length_cons, List.length_append]
      exact congrArg some (by omega)

/-- The first blank line of a well-formed response is the one after its headers. -/
theorem bodyAfterBlankLine_serialize (response : HttpResponse) :
    bodyAfterBlankLine response.serialize = some response.body := by
  have needle : "\r\n\r\n".data = ['\r', '\n', '\r', '\n'] := rfl
  have found : findSub "\r\n\r\n".data response.serialize.data =
      some (response.statusLine.data ++ headerLines response.headers).length := by
    have lines := findSub_headerLines response.headers_clean response.body.data
    rw [needle] at lines ⊢
    rw [HttpResponse.serialize, List.append_assoc, List.append_assoc, ← List.append_assoc
      (headerLines _), findSub_cr_append response.statusLine_clean, lines]
    simp only [Option.map_some', List.length_append, Nat.add_comm]
  rw [bodyAfterBlankLine, found, Option.map_some', HttpResponse.serialize, List.append_assoc,
    List.drop_append_eq_append_drop, List.drop_eq_nil_of_le (by simp), List.nil_append,
    List.length_append, Nat.add_sub_cancel_left, needle]
  rfl

/-- Both header skips hand on exactly the body of every well-formed response, whatever its
status line says and whatever the body holds, blank lines included: the native `http_fetch`
returns it, and `fetch_consensus` passes it to `process_consensus`. -/
theorem headerSkips_read_body (response : HttpResponse) :
    skipHttpHeaders response.serialize = some (.ok response.body) ∧
      consensusBody (asBytes response.serialize) = some response.body :=
  ⟨by rw [skipHttpHeaders_spec, bodyAfterBlankLine_serialize],
    by rw [consensusBody_spec, bodyAfterBlankLine_serialize]; rfl⟩

example : skipHttpHeaders (HttpResponse.serialize
    ⟨"HTTP/1.0 404 Not Found", ["Server: x"], "a\r\n\r\nb", by decide, by decide⟩) =
      some (.ok "a\r\n\r\nb") :=
  rfl

end Webtor.Directory
