/-
Module: Webtor.WebTunnel
Purpose: `WebTunnelConfig::to_wss_url` in `webtor/src/webtunnel.rs`: parse the configured URL,
  map `https` to `wss` and `http` to `ws` (keeping `wss` and `ws`), and print
  `scheme://host[:port]path` from `host_str()`, `port()` and `path()`; and
  `WebTunnelBridge::connect`, which hands that URL to the WebSocket connector. `toWssUrl_stable`
  proves that every URL `to_wss_url` returns is a fixed point and keeps the host, the effective
  port and the path of the configured URL; `connect_calls` that the connector is only ever
  called with such a URL, and that every failure before it is a configuration error.
Trusted boundary: `Url::parse` is the model of `Webtor.UrlParser.Parse`, for every IDNA
  satisfying its two laws and every parser of the `file` and non-special schemes;
  `WebSocketStream::connect` is a parameter.
Main exports: WebTunnelConfig, wssScheme, toWssUrl, wssScheme_cases, toWssUrl_of_parse,
  toWssUrl_ok, toWssUrl_reparse, connect, connect_rejects_scheme, connect_calls, toWssUrl_stable
-/
import Webtor.UrlParser.Reparse
import Webtor.Consensus.Types

namespace Webtor.WebTunnel

open Webtor.Text Webtor.UrlParser Webtor.Consensus

/-- `WebTunnelConfig`: `to_wss_url` reads only its `url`. -/
structure WebTunnelConfig where
  url : String

/-- The scheme `to_wss_url` writes for a parsed scheme: `https` to `wss`, `http` to `ws`, `wss`
and `ws` kept, any other rejected. -/
def wssScheme (scheme : String) : Option String :=
  match scheme with
  | "https" => some "wss"
  | "http" => some "ws"
  | "wss" => some scheme
  | "ws" => some scheme
  | _ => none

/-- `format!("{}", port)`. -/
def decimal (port : UInt16) : String := ⟨Nat.toDigits 10 port.toNat⟩

/-! ### The schemes -/

theorem wssScheme_cases {scheme out : String} (mapped : wssScheme scheme = some out) :
    (scheme = "https" ∧ out = "wss") ∨ (scheme = "http" ∧ out = "ws") ∨
      (scheme = "wss" ∧ out = "wss") ∨ (scheme = "ws" ∧ out = "ws") := by
  unfold wssScheme at mapped
  split at mapped <;> simp_all

/-- A scheme `to_wss_url` writes is `wss` or `ws`, is special, keeps the default port of the
scheme it replaces, and is mapped to itself. -/
theorem wssScheme_facts {scheme out : String} (mapped : wssScheme scheme = some out) :
    (out = "wss" ∨ out = "ws") ∧ SchemeType.ofScheme scheme = .specialNotFile ∧
      defaultPort out = defaultPort scheme ∧ wssScheme out = some out := by
  rcases wssScheme_cases mapped with ⟨rfl, rfl⟩ | ⟨rfl, rfl⟩ | ⟨rfl, rfl⟩ | ⟨rfl, rfl⟩ <;>
    decide

section
variable (idna : Idna) (otherSchemes : String → List Char → Except ParseError Url)

/-- `to_wss_url`. -/
def toWssUrl (config : WebTunnelConfig) : Except TorError String := do
  let url ← (Url.parse idna otherSchemes config.url).mapError
    fun e => .configuration ("Invalid WebTunnel URL: " ++ e.message)
  let scheme ← match wssScheme url.scheme with
    | some scheme => pure scheme
    | none => throw (.configuration ("Invalid WebTunnel URL scheme: " ++ url.scheme ++
        ". Expected https, http, wss, or ws."))
  let host ← match url.hostStr with
    | some host => pure host
    | none => throw (.configuration "WebTunnel URL missing host")
  let path := url.pathStr
  pure (match url.port with
    | some p => scheme ++ "://" ++ host ++ ":" ++ decimal p ++ path
    | none => scheme ++ "://" ++ host ++ path)

/-! ### What `to_wss_url` returns -/

/-- `to_wss_url` on a URL it accepts prints the new scheme, `://`, the host, the explicit port
and the path. -/
theorem toWssUrl_of_parse {config : WebTunnelConfig} {url : Url} {scheme : String} {host : Host}
    (parsed : Url.parse idna otherSchemes config.url = .ok url)
    (mapped : wssScheme url.scheme = some scheme) (hostSome : url.host = some host) :
    toWssUrl idna otherSchemes config =
      .ok ⟨scheme.data ++ ':' :: '/' :: '/' ::
        (host.serialize ++ portSuffix url.port ++ url.path.serialize)⟩ := by
  simp only [toWssUrl, parsed, Except.mapError, bind, Except.bind, mapped, Url.hostStr, hostSome,
    Option.map_some', pure, Except.pure, Url.pathStr]
  congr 1
  apply String.ext
  cases url.port <;> simp [String.data_append, decimal, portSuffix]

/-- `to_wss_url` succeeds only on a URL that parses, with a scheme it maps, and with a host. -/
theorem toWssUrl_ok {config : WebTunnelConfig} {w : String}
    (ok : toWssUrl idna otherSchemes config = .ok w) :
    ∃ url scheme host, Url.parse idna otherSchemes config.url = .ok url ∧
      wssScheme url.scheme = some scheme ∧ url.host = some host := by
  cases parsed : Url.parse idna otherSchemes config.url with
  | error e => simp [toWssUrl, parsed, Except.mapError, bind, Except.bind] at ok
  | ok url =>
      cases mapped : wssScheme url.scheme with
      | none =>
          simp [toWssUrl, parsed, Except.mapError, bind, Except.bind, mapped, throw,
            throwThe, MonadExceptOf.throw] at ok
      | some scheme =>
          cases hostSome : url.host with
          | none =>
              simp [toWssUrl, parsed, Except.mapError, bind, Except.bind, mapped, Url.hostStr,
                hostSome, throw, throwThe, MonadExceptOf.throw, pure, Except.pure] at ok
          | some host => exact ⟨url, scheme, host, rfl, mapped, hostSome⟩

/-- Every error of `to_wss_url` is a configuration error. -/
theorem toWssUrl_error_configuration {config : WebTunnelConfig} {e : TorError}
    (failed : toWssUrl idna otherSchemes config = .error e) :
    ∃ message, e = .configuration message := by
  cases parsed : Url.parse idna otherSchemes config.url with
  | error pe =>
      simp only [toWssUrl, parsed, Except.mapError, bind, Except.bind] at failed
      exact ⟨_, (Except.error.inj failed).symm⟩
  | ok url =>
      cases mapped : wssScheme url.scheme with
      | none =>
          simp only [toWssUrl, parsed, Except.mapError, bind, Except.bind, mapped, throw,
            throwThe, MonadExceptOf.throw] at failed
          exact ⟨_, (Except.error.inj failed).symm⟩
      | some scheme =>
          cases hostStr : url.hostStr with
          | none =>
              simp only [toWssUrl, parsed, Except.mapError, bind, Except.bind, mapped, hostStr,
                throw, throwThe, MonadExceptOf.throw, pure, Except.pure] at failed
              exact ⟨_, (Except.error.inj failed).symm⟩
          | some host =>
              simp [toWssUrl, parsed, Except.mapError, bind, Except.bind, mapped, hostStr, pure,
                Except.pure] at failed

/-- What `to_wss_url` returns parses to the configured URL under the new scheme, and is its own
`to_wss_url`. -/
theorem toWssUrl_reparse {config : WebTunnelConfig} {w : String}
    (ok : toWssUrl idna otherSchemes config = .ok w) :
    ∃ u scheme, Url.parse idna otherSchemes config.url = .ok u ∧
      wssScheme u.scheme = some scheme ∧
      Url.parse idna otherSchemes w = .ok { u with scheme := scheme } ∧
      toWssUrl idna otherSchemes ⟨w⟩ = .ok w := by
  obtain ⟨u, scheme, host, parsed, mapped, hostSome⟩ := toWssUrl_ok idna otherSchemes ok
  have printed := toWssUrl_of_parse idna otherSchemes parsed mapped hostSome
  rw [ok] at printed
  cases printed
  obtain ⟨ws, special, sameDefault, fixed⟩ := wssScheme_facts mapped
  have reread : Url.parse idna otherSchemes _ = _ :=
    Url.parse_reprint (Url.parse_special parsed special) hostSome ws sameDefault
  exact ⟨u, scheme, parsed, mapped, reread,
    @toWssUrl_of_parse idna otherSchemes ⟨_⟩ { u with scheme := scheme } _ _ reread fixed
      hostSome⟩

/-! ### Connecting -/

/-- `WebTunnelBridge::connect`, which `create_webtunnel_stream` calls on a new bridge:
`to_wss_url`, then `WebSocketStream::connect` (a parameter) on the URL it returns. Beside the
result, the URLs the WebSocket connector was called with. -/
def connect {σ : Type} (wsConnect : String → Except TorError σ) (config : WebTunnelConfig) :
    List String × Except TorError σ :=
  match toWssUrl idna otherSchemes config with
  | .error e => ([], .error e)
  | .ok wssUrl => ([wssUrl], wsConnect wssUrl)

/-- A URL whose scheme `to_wss_url` rejects fails at configuration time: the WebSocket connector
is never called, and the error names the scheme. -/
theorem connect_rejects_scheme {σ : Type} (wsConnect : String → Except TorError σ)
    {config : WebTunnelConfig} {url : Url}
    (parsed : Url.parse idna otherSchemes config.url = .ok url)
    (rejected : wssScheme url.scheme = none) :
    connect idna otherSchemes wsConnect config =
      ([], .error (.configuration ("Invalid WebTunnel URL scheme: " ++ url.scheme ++
        ". Expected https, http, wss, or ws."))) := by
  simp only [connect, toWssUrl, parsed, Except.mapError, bind, Except.bind, rejected, throw,
    throwThe, MonadExceptOf.throw]

example : connect asciiIdna (fun _ _ => .error .relativeUrlWithoutBase) (fun _ => .ok ())
    ⟨"ftp://example.com/"⟩ =
      ([], .error (.configuration
        "Invalid WebTunnel URL scheme: ftp. Expected https, http, wss, or ws.")) := by
  decide

/-- `connect` calls the WebSocket connector at most once, only with a `ws` or `wss` URL that is
its own `to_wss_url`; when it makes no call, it fails with a configuration error. -/
theorem connect_calls {σ : Type} (wsConnect : String → Except TorError σ)
    (config : WebTunnelConfig) :
    (connect idna otherSchemes wsConnect config).1.length ≤ 1 ∧
      (∀ u ∈ (connect idna otherSchemes wsConnect config).1,
        toWssUrl idna otherSchemes ⟨u⟩ = .ok u ∧
          ∃ v, Url.parse idna otherSchemes u = .ok v ∧
            (v.scheme = "wss" ∨ v.scheme = "ws")) ∧
      ((connect idna otherSchemes wsConnect config).1 = [] →
        ∃ message, (connect idna otherSchemes wsConnect config).2 =
          .error (.configuration message)) := by
  unfold connect
  split
  · next e failed =>
      obtain ⟨message, rfl⟩ := toWssUrl_error_configuration idna otherSchemes failed
      exact ⟨by simp, by simp, fun _ => ⟨message, rfl⟩⟩
  · next w ok =>
      obtain ⟨u, scheme, -, mapped, reread, fixed⟩ := toWssUrl_reparse idna otherSchemes ok
      refine ⟨by simp, fun v member => ?_, fun called => absurd called (List.cons_ne_nil _ _)⟩
      rw [List.mem_singleton.mp member]
      exact ⟨fixed, _, reread, (wssScheme_facts mapped).1⟩

end

/-! ### Stability -/

theorem toWssUrl_stable (idna : Idna)
    (otherSchemes : String → List Char → Except ParseError Url) (config : WebTunnelConfig)
    (w : String) (ok : toWssUrl idna otherSchemes config = .ok w) :
    toWssUrl idna otherSchemes ⟨w⟩ = .ok w ∧
      ∃ u v, Url.parse idna otherSchemes config.url = .ok u ∧
        Url.parse idna otherSchemes w = .ok v ∧
        ((u.scheme = "https" ∧ v.scheme = "wss") ∨ (u.scheme = "http" ∧ v.scheme = "ws") ∨
          (u.scheme = "wss" ∧ v.scheme = "wss") ∨ (u.scheme = "ws" ∧ v.scheme = "ws")) ∧
        v.hostStr = u.hostStr ∧ v.port = u.port ∧
        v.portOrKnownDefault = u.portOrKnownDefault ∧ v.pathStr = u.pathStr := by
  obtain ⟨u, scheme, parsed, mapped, reread, fixed⟩ := toWssUrl_reparse idna otherSchemes ok
  have sameDefault := (wssScheme_facts mapped).2.2.1
  exact ⟨fixed, u, _, parsed, reread, wssScheme_cases mapped, rfl, rfl,
    by simp only [Url.portOrKnownDefault, sameDefault], rfl⟩

theorem toWssUrl_stable_on_port :
    toWssUrl asciiIdna (fun _ _ => .error .relativeUrlWithoutBase)
        ⟨"https://example.com:8443/path"⟩ = .ok "wss://example.com:8443/path" ∧
      (toWssUrl asciiIdna (fun _ _ => .error .relativeUrlWithoutBase)
          ⟨"wss://example.com:8443/path"⟩ = .ok "wss://example.com:8443/path" ∧
        ∃ u v, Url.parse asciiIdna (fun _ _ => .error .relativeUrlWithoutBase)
            "https://example.com:8443/path" = .ok u ∧
          Url.parse asciiIdna (fun _ _ => .error .relativeUrlWithoutBase)
            "wss://example.com:8443/path" = .ok v ∧
          ((u.scheme = "https" ∧ v.scheme = "wss") ∨ (u.scheme = "http" ∧ v.scheme = "ws") ∨
            (u.scheme = "wss" ∧ v.scheme = "wss") ∨ (u.scheme = "ws" ∧ v.scheme = "ws")) ∧
          v.hostStr = u.hostStr ∧ v.port = u.port ∧
          v.portOrKnownDefault = u.portOrKnownDefault ∧ v.pathStr = u.pathStr) :=
  ⟨by decide, toWssUrl_stable asciiIdna (fun _ _ => .error .relativeUrlWithoutBase)
    ⟨"https://example.com:8443/path"⟩ "wss://example.com:8443/path" (by decide)⟩

example : toWssUrl asciiIdna (fun _ _ => .error .relativeUrlWithoutBase)
    ⟨"https://example.com:8443/path"⟩ = .ok "wss://example.com:8443/path" := by decide

example : toWssUrl asciiIdna (fun _ _ => .error .relativeUrlWithoutBase)
    ⟨"http://[::1]:443/a/../b"⟩ = .ok "ws://[::1]:443/b" := by decide

end Webtor.WebTunnel
