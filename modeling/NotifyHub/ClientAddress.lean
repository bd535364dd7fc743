import NotifyHub.ExpectedSchedule
import NotifyHub.IngestLookalike
import NotifyHub.IpAddresses
import Mathlib.Tactic

/-!
# The address of a client

`client_ip` behind the networks of `TRUSTED_PROXIES`.  A proxy appends the
address from which it has been called, to the line that is there or in a line of
its own; only the first line is read.
-/

namespace NotifyHub.ClientAddress

open IpAddresses Lookalike

/-! ## Addresses -/

/-- The property `ipv4_mapped`. -/
def ipv4Mapped (value : BitVec 128) : Option (BitVec 32) :=
  if value >>> 32 = 0xFFFF#128 then some (value.setWidth 32) else none

/-- `_parse_ip`. -/
def parseIp (value : Text) : Option IpAddress :=
  match ipAddress value with
  | none | some (.v6 _ (some _)) => none
  | some (.v4 value) => some (.v4 value)
  | some (.v6 value none) =>
      match ipv4Mapped value with
      | some mapped => some (.v4 mapped)
      | none => some (.v6 value none)

/-- `_is_trusted`. -/
def isTrusted (networks : List IpNetwork) (ip : IpAddress) : Bool :=
  networks.any fun network => network.contains ip

def addressesOf (networks : List IpNetwork) : Addresses IpAddress where
  parse := parseIp
  trusted := isTrusted networks
  text := IpAddress.text

/-- The canonical text of an address that was read is read as the same one. -/
theorem parseIp_text {value : Text} {ip : IpAddress}
    (hparse : parseIp value = some ip) : parseIp ip.text = some ip := by
  unfold parseIp at hparse
  split at hparse
  · cases hparse
  · cases hparse
  next value _ =>
    obtain rfl := Option.some.inj hparse
    rw [parseIp, ipAddress_text_v4]
  next value _ =>
    split at hparse
    next mapped _ =>
      obtain rfl := Option.some.inj hparse
      rw [parseIp, ipAddress_text_v4]
    next hmapped =>
      obtain rfl := Option.some.inj hparse
      rw [parseIp, ipAddress_text_v6]
      simp only [hmapped]

/-! ## Forwarded addresses -/

def forwardedFor : Text := "x-forwarded-for".toList

/-- The lines of `X-Forwarded-For` in their order. -/
def forwardedLines (request : Request) : List Text :=
  (request.headers.filter fun header => header.1 = forwardedFor).map Prod.snd

/-- The value which HTTP gives to several lines of one header. -/
def joinedLines (lines : List Text) : Text :=
  [','].intercalate lines

def entriesOf (forwarded : Text) : List Text :=
  (forwarded.splitOn ',').map strip

/-- The peer of the connection. -/
def peerHost (request : Request) : Text :=
  request.host.getD "unknown".toList

section Walk

variable (networks : List IpNetwork)

def TrustedEntry (entry : Text) : Prop :=
  ∃ proxy, parseIp entry = some proxy ∧ isTrusted networks proxy = true

/-- The last address that is none of the trusted proxies. -/
def LastUntrusted (forwarded : Text) (ip : IpAddress) : Prop :=
  ∃ before entry after, entriesOf forwarded = before ++ entry :: after ∧
    parseIp entry = some ip ∧ isTrusted networks ip = false ∧
    ∀ later ∈ after, TrustedEntry networks later

variable {networks}

/-- Starlette finds the first line only. -/
theorem header_forwardedFor (request : Request) :
    request.header forwardedFor = (forwardedLines request).head? := by
  rw [Request.header, forwardedLines]
  induction request.headers with
  | nil => rfl
  | cons header headers ih =>
      by_cases hname : header.1 = forwardedFor
      · rw [List.filter_cons_of_pos (by simpa using hname), List.lookup_cons]
        simp [hname]
      · have hother : (forwardedFor == header.1) = false := by
          rw [beq_eq_false_iff_ne]
          exact fun heq => hname heq.symm
        rw [List.filter_cons_of_neg (by simpa using hname), List.lookup_cons,
          hother]
        exact ih

/-! ## The walk from the right -/

theorem clientBehind_trusted {host : Text} {entries : List Text}
    (htrusted : ∀ entry ∈ entries, TrustedEntry networks entry)
    (rest : List Text) :
    clientBehind (addressesOf networks) host (entries ++ rest) =
      clientBehind (addressesOf networks) host rest := by
  induction entries with
  | nil => rfl
  | cons entry entries ih =>
      obtain ⟨proxy, hparse, hproxy⟩ := htrusted entry List.mem_cons_self
      have hlater := ih fun other hother =>
        htrusted other (List.mem_cons_of_mem _ hother)
      have hread : (addressesOf networks).parse entry = some proxy := hparse
      have hknown : (addressesOf networks).trusted proxy = true := hproxy
      rw [List.cons_append, clientBehind, hread]
      simp only [hknown, if_true]
      exact hlater

/-- Where the walk ends: at the host, at an address that is not trusted, or
behind the last proxy. -/
theorem clientBehind_cases (host : Text) (entries : List Text) :
    clientBehind (addressesOf networks) host entries = some host ∨
      (∃ after entry before ip, entries = after ++ entry :: before ∧
        (∀ later ∈ after, TrustedEntry networks later) ∧
        parseIp entry = some ip ∧ isTrusted networks ip = false ∧
        clientBehind (addressesOf networks) host entries = some ip.text) ∨
      (clientBehind (addressesOf networks) host entries = none ∧
        ∀ entry ∈ entries, TrustedEntry networks entry) := by
  induction entries with
  | nil => exact .inr (.inr ⟨rfl, by simp⟩)
  | cons entry entries ih =>
      cases hparse : parseIp entry with
      | none =>
          left
          have hread : (addressesOf networks).parse entry = none := hparse
          rw [clientBehind, hread]
      | some ip =>
          have hread : (addressesOf networks).parse entry = some ip := hparse
          cases htrusted : isTrusted networks ip with
          | false =>
              have hknown : (addressesOf networks).trusted ip = false := htrusted
              refine .inr (.inl ⟨[], entry, entries, ip, rfl, by simp, hparse,
                htrusted, ?_⟩)
              rw [clientBehind, hread]
              simp only [hknown]
              rfl
          | true =>
              have hentry : TrustedEntry networks entry := ⟨ip, hparse, htrusted⟩
              have hskip : clientBehind (addressesOf networks) host
                  (entry :: entries) =
                    clientBehind (addressesOf networks) host entries :=
                @clientBehind_trusted networks host [entry]
                  (by simpa using hentry) entries
              rw [hskip]
              rcases ih with hhost | ⟨after, last, before, found, rfl, hafter,
                hlast, hfound, hresult⟩ | ⟨hnone, hall⟩
              · exact .inl hhost
              · refine .inr (.inl ⟨entry :: after, last, before, found, rfl, ?_,
                  hlast, hfound, hresult⟩)
                intro later hlater
                rcases List.mem_cons.mp hlater with rfl | hmem
                · exact hentry
                · exact hafter later hmem
              · refine .inr (.inr ⟨hnone, ?_⟩)
                intro other hother
                rcases List.mem_cons.mp hother with rfl | hmem
                · exact hentry
                · exact hall other hmem

/-! ## The client -/

/-- The peer of the connection is a proxy. -/
def trustedPeer (networks : List IpNetwork) (request : Request) : Bool :=
  (parseIp (peerHost request)).any (isTrusted networks)

theorem clientIp_eq (networks : List IpNetwork) (request : Request) :
    clientIp (addressesOf networks) request =
      if trustedPeer networks request = false ∨
          ((forwardedLines request).head?).getD [] = [] then peerHost request
      else
        let entries := entriesOf ((forwardedLines request).head?.getD [])
        (clientBehind (addressesOf networks) (peerHost request)
          entries.reverse).getD
          ((entries.head?.bind parseIp).elim (peerHost request)
            IpAddress.text) := by
  rw [← header_forwardedFor]
  rfl

theorem clientIp_of_untrusted {request : Request}
    (huntrusted : trustedPeer networks request = false) :
    clientIp (addressesOf networks) request = peerHost request := by
  rw [clientIp_eq, if_pos (.inl huntrusted)]

theorem peerHost_ne_text {request : Request} {entry : Text} {ip : IpAddress}
    (htrusted : trustedPeer networks request = true)
    (hparse : parseIp entry = some ip) (huntrusted : isTrusted networks ip = false) :
    peerHost request ≠ ip.text := by
  intro heq
  rw [trustedPeer, heq, parseIp_text hparse] at htrusted
  exact absurd (htrusted.symm.trans huntrusted) (by decide)

theorem text_injective {entry other : Text} {ip found : IpAddress}
    (hparse : parseIp entry = some ip) (hfound : parseIp other = some found)
    (htext : found.text = ip.text) : found = ip := by
  have hread := parseIp_text hfound
  rw [htext, parseIp_text hparse] at hread
  exact (Option.some.inj hread).symm

/-- The first line alone gives the client its address. -/
theorem clientIp_of_lastUntrusted {request : Request} {line : Text}
    {ip : IpAddress} (htrusted : trustedPeer networks request = true)
    (hline : (forwardedLines request).head? = some line)
    (hlast : LastUntrusted networks line ip) :
    clientIp (addressesOf networks) request = ip.text := by
  obtain ⟨before, entry, after, hentries, hparse, huntrusted, hafter⟩ := hlast
  have hne : line ≠ [] := by
    rintro rfl
    have hsingle : [[]] = before ++ entry :: after := hentries
    cases before with
    | nil =>
        obtain ⟨rfl, -⟩ := List.cons.inj hsingle
        cases hparse
    | cons first others =>
        have hlength := congrArg List.length hsingle
        simp at hlength
  have hwalk : clientBehind (addressesOf networks) (peerHost request)
      (entriesOf line).reverse = some ip.text := by
    rw [hentries, List.reverse_append, List.reverse_cons, List.append_assoc,
      clientBehind_trusted fun later hlater =>
        hafter later (List.mem_reverse.mp hlater)]
    have hread : (addressesOf networks).parse entry = some ip := hparse
    have hknown : (addressesOf networks).trusted ip = false := huntrusted
    rw [List.singleton_append, clientBehind, hread]
    simp only [hknown]
    rfl
  rw [clientIp_eq, hline, Option.getD_some, if_neg]
  · simp only [hwalk, Option.getD_some]
  · rintro (hpeer | hempty)
    · exact absurd (hpeer.symm.trans htrusted) (by decide)
    · exact hne hempty

/-- No other address is given to the client by the first line. -/
theorem lastUntrusted_of_clientIp {request : Request} {entry : Text}
    {ip : IpAddress} (htrusted : trustedPeer networks request = true)
    (hparse : parseIp entry = some ip) (huntrusted : isTrusted networks ip = false)
    (hclient : clientIp (addressesOf networks) request = ip.text) :
    ∃ line, (forwardedLines request).head? = some line ∧
      LastUntrusted networks line ip := by
  have hhost := peerHost_ne_text htrusted hparse huntrusted
  rw [clientIp_eq] at hclient
  cases hline : (forwardedLines request).head? with
  | none =>
      rw [hline, if_pos (.inr rfl)] at hclient
      exact absurd hclient hhost
  | some line =>
      refine ⟨line, rfl, ?_⟩
      rw [hline, Option.getD_some] at hclient
      split at hclient
      · exact absurd hclient hhost
      simp only at hclient
      rcases @clientBehind_cases networks (peerHost request)
        (entriesOf line).reverse with hfallback | ⟨after, last, before, found,
          hentries, hafter, hlast, hfound, hresult⟩ | ⟨hnone, hall⟩
      · rw [hfallback, Option.getD_some] at hclient
        exact absurd hclient hhost
      · rw [hresult, Option.getD_some] at hclient
        obtain rfl := text_injective hparse hlast hclient
        refine ⟨before.reverse, last, after.reverse, ?_, hlast, huntrusted, ?_⟩
        · have hreverse := congrArg List.reverse hentries
          rw [List.reverse_reverse, List.reverse_append, List.reverse_cons,
            List.append_assoc, List.singleton_append] at hreverse
          exact hreverse
        · intro later hlater
          exact hafter later (List.mem_reverse.mp hlater)
      · -- every entry is a proxy, the leftmost one too
        rw [hnone, Option.getD_none] at hclient
        exfalso
        cases hfirst : (entriesOf line).head? with
        | none =>
            rw [hfirst] at hclient
            exact hhost hclient
        | some leftmost =>
            obtain ⟨proxy, hproxy, hknown⟩ := hall leftmost
              (List.mem_reverse.mpr (List.mem_of_head? hfirst))
            rw [hfirst, Option.bind_some, hproxy] at hclient
            obtain rfl := text_injective hparse hproxy hclient
            exact absurd (hknown.symm.trans huntrusted) (by decide)

end Walk

/-- A peer which is no proxy is the client, whatever it sends.  Behind a proxy
the client has the last address of all the lines which is not trusted exactly
if the first line alone ends with this address and trusted ones. -/
theorem client_address_iff (networks : List IpNetwork) (request : Request) :
    (trustedPeer networks request = false →
      ∀ headers, clientIp (addressesOf networks)
        { request with headers := headers } = peerHost request) ∧
    (trustedPeer networks request = true →
      ∀ ip, LastUntrusted networks (joinedLines (forwardedLines request)) ip →
        (clientIp (addressesOf networks) request = ip.text ↔
          ∃ line, (forwardedLines request).head? = some line ∧
            LastUntrusted networks line ip)) := by
  constructor
  · intro huntrusted headers
    exact clientIp_of_untrusted huntrusted
  · rintro htrusted ip ⟨before, entry, after, -, hparse, huntrusted, -⟩
    constructor
    · exact lastUntrusted_of_clientIp htrusted hparse huntrusted
    · rintro ⟨line, hline, hlast⟩
      exact clientIp_of_lastUntrusted htrusted hline hlast

/-- With one line nothing in front of the last address matters. -/
theorem clientIp_of_single_line {networks : List IpNetwork} {request : Request}
    {line : Text} {ip : IpAddress}
    (htrusted : trustedPeer networks request = true)
    (hline : forwardedLines request = [line])
    (hlast : LastUntrusted networks (joinedLines (forwardedLines request)) ip) :
    clientIp (addressesOf networks) request = ip.text := by
  rw [hline, joinedLines, List.intercalate_singleton] at hlast
  exact clientIp_of_lastUntrusted htrusted (by rw [hline]; rfl) hlast

/-! ## A second line -/

/-- A request which the proxy 10.0.0.1 has passed on. -/
def forwardedRequest (lines : List Text) : Request where
  host := some "10.0.0.1".toList
  headers := lines.map fun line => (forwardedFor, line)
  severity := none
  chunks := []
  requestUuid := 0
  ipCall := ⟨0, 0⟩
  slugCall := ⟨0, 0⟩
  rejectedAt := 0

def privateNetworks : List IpNetwork := [.v4 0x0A000000#32 8]

def mappedLine : Text := "junk, 2001:DB8:0::1, ::ffff:10.0.0.2".toList

def documentationAddress : IpAddress :=
  .v6 0x20010DB8000000000000000000000001#128 none

theorem mappedLine_lastUntrusted :
    LastUntrusted privateNetworks mappedLine documentationAddress := by
  refine ⟨["junk".toList], "2001:DB8:0::1".toList, ["::ffff:10.0.0.2".toList],
    by decide, by decide, by decide, ?_⟩
  intro later hlater
  rw [List.mem_singleton.mp hlater]
  exact ⟨.v4 0x0A000002#32, by decide, by decide⟩

/-- One line, with an address which is mapped to IPv4 behind the client's. -/
theorem client_address_single :
    clientIp (addressesOf privateNetworks) (forwardedRequest [mappedLine]) =
      "2001:db8::1".toList := by
  have htext : documentationAddress.text = "2001:db8::1".toList := by decide
  have htrusted : trustedPeer privateNetworks (forwardedRequest [mappedLine]) =
      true := by decide
  have hclient := ((client_address_iff privateNetworks
    (forwardedRequest [mappedLine])).2 htrusted documentationAddress
      mappedLine_lastUntrusted).mpr ⟨mappedLine, rfl, mappedLine_lastUntrusted⟩
  rw [hclient, htext]

/-- The client writes the first line and the proxy a second one. -/
theorem client_address_forged :
    trustedPeer privateNetworks
        (forwardedRequest ["9.9.9.9".toList, "8.8.8.8".toList]) = true ∧
      LastUntrusted privateNetworks (joinedLines (forwardedLines
        (forwardedRequest ["9.9.9.9".toList, "8.8.8.8".toList])))
        (.v4 0x08080808#32) ∧
      clientIp (addressesOf privateNetworks)
        (forwardedRequest ["9.9.9.9".toList, "8.8.8.8".toList]) =
          "9.9.9.9".toList := by
  refine ⟨by decide, ?_, by decide⟩
  exact ⟨["9.9.9.9".toList], "8.8.8.8".toList, [], by decide, by decide,
    by decide, by simp⟩

end NotifyHub.ClientAddress
