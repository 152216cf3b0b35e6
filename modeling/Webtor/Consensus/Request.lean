/-
Module: Webtor.Consensus.Request
Purpose: the requests the native `http_fetch` sends for the URLs the consensus code builds.
  `fetch_from_directory` and `fetch_microdescriptors` print `http://{address}:{port}{path}`
  with `format!`, and `http_fetch` reads the URL back with `Url::parse`, `host_str()`,
  `port().unwrap_or(80)` and `path()`. `readResponse_consensusUrl` and
  `readResponse_batchUrls` prove the round trip: for every source whose address is a host as
  the parser prints it, the connection goes to the source's address and port (the default
  port 80, which `port()` drops, included) and the request line carries exactly the path the
  code formatted, the batch's hex digests joined by `-` among them. For any input with a
  special scheme, the request has no line of the caller's making (`readResponse_request`).
Trusted boundary: `Url::parse` is the model of `Webtor.UrlParser.Parse`, for every IDNA
  satisfying its two laws and every parser of the other schemes; the socket calls are the
  `NativeNet` parameters.
Main exports: urlView, urlModelParse, NativeNet.withUrlModel, exchange, readResponse_printed,
  readResponse_consensusUrl, readResponse_batchUrls, readResponse_request
-/
import Webtor.Consensus.HttpFetch
import Webtor.Consensus.Batches
import Webtor.Consensus.Resolve
import Webtor.UrlParser.Reparse

namespace Webtor.Consensus

open Webtor.Text Webtor.UrlParser

/-- What the native `http_fetch` reads of a parsed URL: `host_str()`, `port()` and `path()`. -/
def urlView (url : Url) : UrlView := ⟨url.hostStr, url.port, url.pathStr⟩

/-- `Url::parse` as the native `http_fetch` calls it: the model's parser, its error as
`Display` writes it, read through `urlView`. -/
def urlModelParse (idna : Idna) (otherSchemes : String → List Char → Except ParseError Url)
    (input : String) : Except String UrlView :=
  ((Url.parse idna otherSchemes input).mapError ParseError.message).map urlView

/-- A native network whose `Url::parse` is the model's. -/
def NativeNet.withUrlModel (net : NativeNet) (idna : Idna)
    (otherSchemes : String → List Char → Except ParseError Url) : NativeNet :=
  { net with urlParse := urlModelParse idna otherSchemes }

/-- The socket part of `http_fetch`, once the URL is read: connect to `addr`, set the read
timeout, write the request, and read the whole response. -/
def exchange (net : NativeNet) (addr : String) (request : List UInt8) :
    Except TorError String := do
  (net.connect addr).mapError fun e => .consensusFetch ("Connection failed: " ++ e)
  (net.setReadTimeout addr (Duration.fromSecs 60)).mapError
    fun e => .consensusFetch ("Failed to set timeout: " ++ e)
  (net.writeAll addr request).mapError fun e => .consensusFetch ("Write failed: " ++ e)
  (net.readToString addr request).mapError fun e => .consensusFetch ("Read failed: " ++ e)

theorem readResponse_of_urlParse {net : NativeNet} {url host : String} {view : UrlView}
    (parsed : net.urlParse url = .ok view) (hostSome : view.hostStr = some host) :
    readResponse net url =
      exchange net (host ++ ":" ++ toString (view.port.getD 80))
        (asBytes (httpRequest view.path host)) := by
  simp only [readResponse, exchange, parsed, hostSome, Except.mapError, bind, Except.bind, pure,
    Except.pure]

/-! ### Reading a printed `http` URL -/

/-- `after_double_slash` reads back `//host:port/segments` printed with an explicit port, the
scheme's default port included, which it drops. -/
theorem parseSpecial_explicitPort {idna : Idna} {host : Host} (wellformed : host.Wellformed idna)
    (scheme : String) (p : UInt16) {seg : String} {more : List String}
    (segNormal : NormalSegment seg) (moreNormal : ∀ s ∈ more, NormalSegment s) :
    parseSpecial idna scheme ('/' :: '/' :: (host.serialize ++ portSuffix (some p) ++
        (UrlPath.segments (seg :: more)).serialize)) =
      .ok ⟨scheme, some host, if some p = defaultPort scheme then none else some p,
        .segments (seg :: more)⟩ := by
  have pathText : (UrlPath.segments (seg :: more)).serialize =
      '/' :: (seg.data ++ more.flatMap fun s => '/' :: s.data) := by
    rw [UrlPath.serialize, List.flatMap_cons, List.cons_append]
  have nonempty : host.serialize ≠ [] := by
    cases host <;> simp [Host.serialize, ipv4Serialize]
    exact wellformed.2.1
  have hostChars c (member : c ∈ host.serialize) :=
    Host.authorityChar_of_mem_serialize wellformed member
  have authority : specialAuthority ('/' :: '/' :: (host.serialize ++
      (portSuffix (some p) ++ (UrlPath.segments (seg :: more)).serialize))) =
        host.serialize ++ (portSuffix (some p) ++ (UrlPath.segments (seg :: more)).serialize) := by
    rw [specialAuthority, dropWhile_slashes nonempty hostChars, afterLastAt_append hostChars,
      afterLastAt_append fun c member => authorityChar_of_mem_portSuffix member, pathText,
      afterLastAt, if_pos (by decide)]
    rfl
  unfold parseSpecial
  rw [List.append_assoc, authority, portSuffix, List.cons_append,
    Host.scanHost_serialize wellformed (.inl rfl)]
  dsimp only
  rw [if_neg nonempty]
  simp only [bind, Except.bind, Host.parse_serialize wellformed, parsePortAfterHost, pathText,
    parsePort_decimal _ p (by decide : isSpecialAuthorityEnd '/' = true), pure, Except.pure]
  rw [pathStart, if_pos (by decide : (decide ('/' = '/') || decide ('/'.toNat = 0x5C)) = true),
    parsePath_segments [] seg more segNormal moreNormal, List.nil_append]

theorem parseScheme_http (rest : List Char) :
    parseScheme ("http".data ++ ':' :: rest) = some ("http", rest) := rfl

/-- `Url::parse` reads back `http://host:port/segments`, dropping the port when it is 80. -/
theorem Url.parse_http_printed {idna : Idna}
    {otherSchemes : String → List Char → Except ParseError Url} {host : Host}
    (wellformed : host.Wellformed idna) (p : UInt16) {seg : String} {more : List String}
    (segNormal : NormalSegment seg) (moreNormal : ∀ s ∈ more, NormalSegment s) :
    Url.parse idna otherSchemes ⟨"http".data ++ ':' :: '/' :: '/' ::
        (host.serialize ++ portSuffix (some p) ++ (UrlPath.segments (seg :: more)).serialize)⟩ =
      .ok ⟨"http", some host, if p = 80 then none else some p, .segments (seg :: more)⟩ := by
  have shape : SpecialUrl idna ⟨"http", some host, none, .segments (seg :: more)⟩ :=
    ⟨⟨host, rfl, wellformed⟩, fun _ none => Option.noConfusion none,
      ⟨seg, more, rfl, segNormal, moreNormal⟩⟩
  have visible : ∀ c ∈ "http".data ++ ':' :: '/' :: '/' :: (host.serialize ++
      portSuffix (some p) ++ (UrlPath.segments (seg :: more)).serialize), 0x20 < c.toNat := by
    intro c member
    simp only [List.mem_append, List.mem_cons] at member
    rcases member with (rfl | rfl | rfl | rfl | nil) | rfl | rfl | rfl | (hostChar | portChar) |
      pathChar
    any_goals decide
    · exact absurd nil (List.not_mem_nil _)
    · exact (Host.authorityChar_of_mem_serialize wellformed hostChar).1
    · exact (authorityChar_of_mem_portSuffix portChar).1
    · rcases mem_path_serialize shape pathChar with rfl | kept
      · decide
      · exact visible_of_isPathChar kept
  unfold Url.parse
  rw [preprocess_of_visible visible, parseScheme_http]
  dsimp only
  rw [show SchemeType.ofScheme "http" = .specialNotFile from rfl,
    parseSpecial_explicitPort wellformed "http" p segNormal moreNormal]
  simp only [defaultPort, Option.some.injEq]

/-- The consensus URL of a source whose address is a host as `Host` prints it. -/
theorem consensusUrl_printed (dir : DirectorySource) {host : Host}
    (address : dir.address.data = host.serialize) :
    consensusUrl dir = ⟨"http".data ++ ':' :: '/' :: '/' :: (host.serialize ++
      portSuffix (some dir.port) ++
        (UrlPath.segments ["tor", "status-vote", "current", "consensus-microdesc"]).serialize)⟩ := by
  apply String.ext
  simp [consensusUrl, String.data_append, address, portSuffix, UrlPath.serialize]
  rfl

theorem batchUrl_printed (dir : DirectorySource) {host : Host}
    (address : dir.address.data = host.serialize) (chunk : List String) :
    batchUrl dir chunk = ⟨"http".data ++ ':' :: '/' :: '/' :: (host.serialize ++
      portSuffix (some dir.port) ++
        (UrlPath.segments ["tor", "micro", "d", join "-" chunk]).serialize)⟩ := by
  apply String.ext
  simp [batchUrl, String.data_append, address, portSuffix, UrlPath.serialize]
  rfl

/-- `http_fetch` on a printed `http` URL connects to the host and port it names and asks for
its path. -/
theorem readResponse_printed (net : NativeNet) {idna : Idna}
    {otherSchemes : String → List Char → Except ParseError Url} {host : Host}
    (wellformed : host.Wellformed idna) (p : UInt16) {seg : String} {more : List String}
    (segNormal : NormalSegment seg) (moreNormal : ∀ s ∈ more, NormalSegment s) :
    readResponse (net.withUrlModel idna otherSchemes) ⟨"http".data ++ ':' :: '/' :: '/' ::
        (host.serialize ++ portSuffix (some p) ++ (UrlPath.segments (seg :: more)).serialize)⟩ =
      exchange net (⟨host.serialize⟩ ++ ":" ++ toString p)
        (asBytes (httpRequest ⟨(UrlPath.segments (seg :: more)).serialize⟩ ⟨host.serialize⟩)) := by
  have parsed : (net.withUrlModel idna otherSchemes).urlParse ⟨"http".data ++ ':' :: '/' :: '/' ::
      (host.serialize ++ portSuffix (some p) ++ (UrlPath.segments (seg :: more)).serialize)⟩ =
      .ok (urlView ⟨"http", some host, if p = 80 then none else some p, .segments (seg :: more)⟩) := by
    simp only [NativeNet.withUrlModel, urlModelParse,
      Url.parse_http_printed wellformed p segNormal moreNormal, Except.mapError, Except.map]
  have port : (if p = 80 then none else some p : Option UInt16).getD 80 = p := by
    split <;> simp_all
  rw [readResponse_of_urlParse parsed rfl]
  simp only [urlView, port]
  rfl

private theorem hexOrDash_fin : ∀ c : Fin 128, IsLowerHex (Char.ofNat c) ∨ Char.ofNat c = '-' →
    isPathChar (Char.ofNat c) = true ∧ Char.ofNat c ≠ '.' ∧ Char.ofNat c ≠ '%' := by
  decide

theorem toNat_lt_of_isLowerHex {c : Char} (hex : IsLowerHex c) : c.toNat < 128 := by
  rcases hex with ⟨-, high⟩ | ⟨-, high⟩
  · exact lt_of_le_of_lt (high : c.toNat ≤ '9'.toNat) (by decide)
  · exact lt_of_le_of_lt (high : c.toNat ≤ 'f'.toNat) (by decide)

/-- Every spelling of a dot segment holds a `.` or a `%`. -/
private theorem dotSegments_marked :
    ∀ s ∈ doubleDotSegments ++ singleDotSegments, '.' ∈ s.data ∨ '%' ∈ s.data := by
  decide

/-- A segment of lower-case hex digits and dashes is one `parse_path` reads back as itself. -/
theorem normalSegment_of_hexOrDash {seg : String}
    (chars : ∀ c ∈ seg.data, IsLowerHex c ∨ c = '-') : NormalSegment seg := by
  have each : ∀ c ∈ seg.data, isPathChar c = true ∧ c ≠ '.' ∧ c ≠ '%' := by
    intro c member
    have small : c.toNat < 128 :=
      (chars c member).elim toNat_lt_of_isLowerHex fun dash => dash ▸ by decide
    simpa [Char.ofNat_toNat] using hexOrDash_fin ⟨c.toNat, small⟩ (by simpa using chars c member)
  refine ⟨List.all_eq_true.mpr fun c member => (each c member).1, ?_⟩
  rw [← List.any_append, List.any_eq_false]
  intro s member spelled
  rw [decide_eq_true_eq] at spelled
  rcases dotSegments_marked s member with dot | percent
  · exact (each '.' (spelled ▸ dot)).2.1 rfl
  · exact (each '%' (spelled ▸ percent)).2.2 rfl

/-! ### The requests of one fetch -/

section
variable (idna : Idna) (otherSchemes : String → List Char → Except ParseError Url)

/-- For every directory source whose address is a host as `Host` prints it (every IPv4 address
in dotted decimal, every IPv6 address in brackets, every domain IDNA leaves alone), the native
`http_fetch` of the consensus URL `fetch_from_directory` builds connects to the source's
address and port, the default port 80 included, and sends
`GET /tor/status-vote/current/consensus-microdesc` with the address as `Host`. -/
theorem readResponse_consensusUrl (net : NativeNet) {dir : DirectorySource} {host : Host}
    (address : dir.address.data = host.serialize) (wellformed : host.Wellformed idna) :
    readResponse (net.withUrlModel idna otherSchemes) (consensusUrl dir) =
      exchange net (dir.address ++ ":" ++ toString dir.port)
        (asBytes (httpRequest "/tor/status-vote/current/consensus-microdesc" dir.address)) := by
  rw [consensusUrl_printed dir address,
    readResponse_printed net wellformed dir.port (by decide) (by decide),
    show (⟨host.serialize⟩ : String) = dir.address from String.ext address.symm]
  rfl

/-- A network on which every socket call succeeds and the response read is `response`. -/
def answeringNet (response : String) : NativeNet :=
  ⟨fun _ => .error "not the model", fun _ => .ok (), fun _ _ => .ok (), fun _ _ => .ok (),
    fun _ _ => .ok response⟩

theorem readResponse_consensusUrl_faravahar :
    "154.35.175.225".data = (Host.ipv4 2586030049).serialize ∧
      (Host.ipv4 2586030049).Wellformed asciiIdna ∧
      readResponse ((answeringNet "").withUrlModel asciiIdna fun _ _ => .error .relativeUrlWithoutBase)
          (consensusUrl ⟨"Faravahar", "154.35.175.225", 80⟩) =
        exchange (answeringNet "") ("154.35.175.225" ++ ":" ++ toString (80 : UInt16))
          (asBytes (httpRequest "/tor/status-vote/current/consensus-microdesc" "154.35.175.225")) :=
  ⟨by decide, trivial, @readResponse_consensusUrl asciiIdna _ (answeringNet "")
    ⟨"Faravahar", "154.35.175.225", 80⟩ (.ipv4 2586030049) (by decide) trivial⟩

/-- For every consensus `parse_consensus` accepts and every iteration order of the digest map,
the native `http_fetch` of each batch URL `fetch_microdescriptors` builds connects to the
source's address and port and sends `GET /tor/micro/d/` followed by the batch's digests joined
by `-`, unchanged: hex digests are never percent-encoded or read as dot segments. -/
theorem readResponse_batchUrls (net : NativeNet) {dir : DirectorySource} {host : Host}
    (address : dir.address.data = host.serialize) (wellformed : host.Wellformed idna)
    {parse : String → Except String MdConsensus} {text : String} {relays : List Relay}
    {digests : List (String × String)} (parsed : parseConsensus parse text = .ok (relays, digests))
    (order : HashOrder) :
    ∀ chunk ∈ batches order digests,
      readResponse (net.withUrlModel idna otherSchemes) (batchUrl dir chunk) =
        exchange net (dir.address ++ ":" ++ toString dir.port)
          (asBytes (httpRequest ("/tor/micro/d/" ++ join "-" chunk) dir.address)) := by
  intro chunk member
  have hex : ∀ digest ∈ chunk, ∃ bytes, digest = hexEncode bytes := by
    intro digest inChunk
    obtain ⟨pair, pairMember, rfl⟩ := List.mem_map.mp
      ((mem_flatten_batches order digests digest).mp (List.mem_flatten.mpr ⟨chunk, member, inChunk⟩))
    exact (parseConsensus_output parsed).2.2.2 pair pairMember
  have joined : NormalSegment (join "-" chunk) := normalSegment_of_hexOrDash fun c inJoin => by
    rcases mem_join_data inJoin with dash | ⟨digest, inChunk, inDigest⟩
    · exact .inr (by simpa using dash)
    · obtain ⟨bytes, rfl⟩ := hex digest inChunk
      exact .inl (isLowerHex_of_mem_hexEncode inDigest)
  have path : (⟨(UrlPath.segments ["tor", "micro", "d", join "-" chunk]).serialize⟩ : String) =
      "/tor/micro/d/" ++ join "-" chunk :=
    String.ext (by simp [UrlPath.serialize, String.data_append])
  rw [batchUrl_printed dir address, readResponse_printed net wellformed dir.port (by decide)
      (List.forall_mem_cons.mpr ⟨by decide, List.forall_mem_cons.mpr ⟨by decide,
        List.forall_mem_cons.mpr ⟨joined, fun _ none => absurd none (List.not_mem_nil _)⟩⟩⟩),
    show (⟨host.serialize⟩ : String) = dir.address from String.ext address.symm, path]

/-- A router status, for the witnesses. -/
def sampleStatus : RouterStatus :=
  ⟨[0xAA], "relay", "192.0.2.1", 9001, [.fast, .running], .measured 20, [0x01, 0x02]⟩

/-- A consensus with one router status, for the witnesses. -/
def sampleConsensus : MdConsensus := ⟨[sampleStatus], by decide⟩

theorem readResponse_batchUrls_sample :
    parseConsensus (fun _ => .ok sampleConsensus) "" =
        .ok ([(relayOf sampleStatus).1], [("aa", "0102")]) ∧
      ∀ chunk ∈ batches HashOrder.insertion [("aa", "0102")],
        readResponse ((answeringNet "").withUrlModel asciiIdna
            fun _ _ => .error .relativeUrlWithoutBase)
            (batchUrl ⟨"moria1", "128.31.0.39", 9131⟩ chunk) =
          exchange (answeringNet "") ("128.31.0.39" ++ ":" ++ toString (9131 : UInt16))
            (asBytes (httpRequest ("/tor/micro/d/" ++ join "-" chunk) "128.31.0.39")) :=
  ⟨rfl, @readResponse_batchUrls asciiIdna _ (answeringNet "") ⟨"moria1", "128.31.0.39", 9131⟩
    (.ipv4 2149515303) (by decide) trivial (fun _ => .ok sampleConsensus) "" _ _ rfl _⟩

/-! ### Any URL -/

/-- Whatever text the native `http_fetch` is given, the request it writes has no line of the
caller's making: for every input `Url::parse` reads with a special scheme other than `file`
(`http`, `https`, `ws`, `wss` or `ftp`), the connection goes to the parsed host and to
`port().unwrap_or(80)`, and the request is the request line, the `Host` and `Connection`
headers and the blank line, around a host and a path of visible characters only. A CR, LF or space in the input never reaches the request: the parser drops
tabs and newlines, and encodes the other controls and the space in the path. -/
theorem readResponse_request (net : NativeNet) {input : String} {url : Url}
    (parsed : Url.parse idna otherSchemes input = .ok url)
    (special : SchemeType.ofScheme url.scheme = .specialNotFile) :
    ∃ host, url.hostStr = some host ∧
      readResponse (net.withUrlModel idna otherSchemes) input =
        exchange net (host ++ ":" ++ toString (url.port.getD 80))
          (asBytes (httpRequest url.pathStr host)) ∧
      ∀ c ∈ host.data ++ url.pathStr.data, 0x20 < c.toNat := by
  have shape := Url.parse_special parsed special
  obtain ⟨h, hostSome, wellformed⟩ := shape.host
  refine ⟨⟨h.serialize⟩, by rw [Url.hostStr, hostSome]; rfl,
    @readResponse_of_urlParse _ _ _ (urlView url) ?_ (by rw [urlView, Url.hostStr, hostSome]; rfl),
    fun c member => ?_⟩
  · simp only [NativeNet.withUrlModel, urlModelParse, parsed, Except.mapError, Except.map]
  · rcases List.mem_append.mp member with inHost | inPath
    · exact (Host.authorityChar_of_mem_serialize wellformed inHost).1
    · rcases mem_path_serialize shape inPath with rfl | kept
      · decide
      · exact visible_of_isPathChar kept

theorem readResponse_request_injected :
    Url.parse asciiIdna (fun _ _ => .error .relativeUrlWithoutBase)
        "http://example.com/a\r\nX: 1" =
      .ok ⟨"http", some (.domain "example.com"), none, .segments ["aX:%201"]⟩ ∧
      SchemeType.ofScheme "http" = .specialNotFile ∧
      ∃ host, (⟨"http", some (.domain "example.com"), none, .segments ["aX:%201"]⟩ : Url).hostStr =
          some host ∧
        readResponse ((answeringNet "").withUrlModel asciiIdna
            fun _ _ => .error .relativeUrlWithoutBase) "http://example.com/a\r\nX: 1" =
          exchange (answeringNet "") (host ++ ":" ++ toString (80 : UInt16))
            (asBytes (httpRequest "/aX:%201" host)) ∧
        ∀ c ∈ host.data ++ "/aX:%201".data, 0x20 < c.toNat :=
  ⟨by decide, rfl, readResponse_request asciiIdna _ (answeringNet "") (by decide) rfl⟩

end

end Webtor.Consensus
