import EvmDebugger.Lib.Net

/-!
# Which RPC endpoints the server will talk to

`rpc_url.rs`. A URL is refused for its scheme, for carrying credentials, for its host – names
that mean this machine or its network, and addresses that do – or because there is an allowlist
and it is not on it.

The URL is parsed by a library, `EvmDebugger.UrlCrate`, which gives the host back as a string:
a name as it is, an IPv4 address in dotted decimal, an IPv6 address in square brackets. The
check of the address starts by parsing that string as an address, and a bracket is not part of
one. So the list of IPv6 addresses that are not allowed is never consulted for a URL whose host
is one (`EvmDebugger.validateRpcUrl_ipv6_iff`); `EvmDebugger.not_forbidden_of_accepted_iff` says
for which URLs the check does what it is for.
-/

namespace EvmDebugger

open Net

/-! ### URLs -/

/-- The host of a URL. -/
inductive Host where
  | domain (name : String)
  | ipv4 (addr : Ipv4Addr)
  | ipv6 (addr : Ipv6Addr)
  deriving DecidableEq

/-- A URL, as far as it is looked at. -/
structure Url where
  scheme : String
  username : String
  password : Option String
  host : Option Host
  port : Option ℕ
  deriving DecidableEq

/-- The library that parses URLs, and the text it shows for an IPv6 address between the
brackets. -/
structure UrlCrate where
  parse : String → Option Url
  ipv6Text : Ipv6Addr → String

/-- The host as a string. -/
def Host.str (crate : UrlCrate) : Host → String
  | domain name => name
  | ipv4 addr => addr.text
  | ipv6 addr => "[" ++ crate.ipv6Text addr ++ "]"

/-- `Url::host_str`. -/
def Url.hostStr (crate : UrlCrate) (url : Url) : Option String := url.host.map (Host.str crate)

/-- `Url::port_or_known_default`. -/
def Url.portOrKnownDefault (url : Url) : Option ℕ :=
  url.port.or
    (if url.scheme = "http" ∨ url.scheme = "ws" then some 80
    else if url.scheme = "https" ∨ url.scheme = "wss" then some 443
    else if url.scheme = "ftp" then some 21
    else none)

/-! ### The checks -/

/-- The allowlist of `EVM_DEBUGGER_RPC_ALLOWLIST`; none if nothing is on it. -/
def parseAllowlistEnv (env : Option String) : Option (List String) :=
  env.bind fun v =>
    let list := (((Text.split ',' v).map Text.trim).filter fun s => s ≠ "").map Text.asciiLower
    if list.isEmpty then none else some list

/-- The host is on the allowlist, with its port or without. -/
def allowlistMatches (allowlist : List String) (host : String) (port : ℕ) : Bool :=
  let h := Text.asciiLower host
  let hp := h ++ ":" ++ toString port
  allowlist.any fun e => e == h || e == hp

/-- Names that mean this machine or its network. -/
def isBlockedHostname (host : String) : Bool :=
  let h := Text.asciiLower host
  h == "localhost" || Text.endsWith h ".localhost" || Text.endsWith h ".local"

/-- Addresses that are not allowed. -/
def isBlockedIp : IpAddr → Bool
  | .v4 v4 =>
    v4.isPrivate || v4.isLoopback || v4.isLinkLocal || v4.isMulticast || v4.isUnspecified ||
      v4 == Ipv4Addr.broadcast
  | .v6 v6 =>
    v6.isLoopback || v6.isUnspecified || v6.isMulticast || v6.isUniqueLocal ||
      v6.isUnicastLinkLocal

/-- Parse a URL, and refuse it or not. `allowlistEnv` is the value of the environment variable,
if it is set. -/
def validateRpcUrl (crate : UrlCrate) (allowlistEnv : Option String) (rpcUrl : String) :
    Except String Url :=
  match crate.parse rpcUrl with
  | none => .error ("parsing RPC URL: " ++ rpcUrl)
  | some url =>
    if ¬(url.scheme = "http" ∨ url.scheme = "https") then
      .error ("unsupported RPC URL scheme: " ++ url.scheme)
    else if url.username ≠ "" ∨ url.password.isSome then
      .error "RPC URL must not include username/password"
    else
      match url.hostStr crate with
      | none => .error "RPC URL missing host"
      | some host =>
        if isBlockedHostname host then .error ("RPC URL host is not allowed: " ++ host)
        else
          match (parseIpAddr host).filter isBlockedIp with
          | some ip => .error ("RPC URL IP is not allowed: " ++ ip.text)
          | none =>
            match parseAllowlistEnv allowlistEnv with
            | none => .ok url
            | some allowlist =>
              match url.portOrKnownDefault with
              | none => .error "RPC URL missing port"
              | some port =>
                if ¬allowlistMatches allowlist host port then
                  .error ("RPC URL host is not in allowlist: " ++ host)
                else .ok url

/-! ### What is accepted -/

/-- **The checks that do not look at what the host is**: the scheme, the credentials, and the
allowlist if there is one. -/
structure PassesOtherChecks (crate : UrlCrate) (allowlistEnv : Option String) (url : Url)
    (host : Host) : Prop where
  scheme : url.scheme = "http" ∨ url.scheme = "https"
  username : url.username = ""
  password : url.password = none
  allowlist : ∀ allowlist, parseAllowlistEnv allowlistEnv = some allowlist →
    ∃ port, url.portOrKnownDefault = some port ∧
      allowlistMatches allowlist (host.str crate) port = true

variable {crate : UrlCrate} {allowlistEnv : Option String} {rpcUrl : String} {url : Url}
  {host : Host}

/-- **What is accepted**: a URL whose host is neither a name nor an address that is blocked,
and that passes the other checks. -/
theorem validateRpcUrl_eq_ok_iff (hparse : crate.parse rpcUrl = some url)
    (hhost : url.host = some host) :
    validateRpcUrl crate allowlistEnv rpcUrl = .ok url ↔
      isBlockedHostname (host.str crate) = false ∧
        (∀ ip, parseIpAddr (host.str crate) = some ip → isBlockedIp ip = false) ∧
        PassesOtherChecks crate allowlistEnv url host := by
  have hstr : url.hostStr crate = some (host.str crate) := by
    rw [Url.hostStr, hhost, Option.map_some]
  rw [validateRpcUrl, hparse]
  dsimp only
  constructor
  · intro h
    split at h
    · exact absurd h (by simp)
    · next hscheme =>
      split at h
      · exact absurd h (by simp)
      · next hcred =>
        rw [hstr] at h
        dsimp only at h
        split at h
        · exact absurd h (by simp)
        · next hname =>
          split at h
          · exact absurd h (by simp)
          · next hip =>
            push Not at hcred
            refine ⟨by simpa using hname, fun ip hip' => ?_, not_not.mp hscheme, hcred.1,
              by simpa using hcred.2, fun allowlist hlist => ?_⟩
            · rw [hip'] at hip
              simpa [Option.filter] using hip
            · rw [hlist] at h
              dsimp only at h
              split at h
              · exact absurd h (by simp)
              · next port hport =>
                split at h
                · exact absurd h (by simp)
                · next hmatch => exact ⟨port, hport, not_not.mp hmatch⟩
  · rintro ⟨hname, hip, hpass⟩
    have hnone : (parseIpAddr (host.str crate)).filter isBlockedIp = none := by
      cases hp : parseIpAddr (host.str crate) with
      | none => rfl
      | some ip => simp [Option.filter, hip ip hp]
    rw [if_neg (not_not.mpr hpass.scheme), if_neg (by simp [hpass.username, hpass.password]), hstr]
    dsimp only
    rw [if_neg (by simp [hname]), hnone]
    dsimp only
    cases hlist : parseAllowlistEnv allowlistEnv with
    | none => rfl
    | some allowlist =>
      obtain ⟨port, hport, hmatch⟩ := hpass.allowlist allowlist hlist
      dsimp only
      rw [hport]
      dsimp only
      rw [if_neg (not_not.mpr hmatch)]

/-! ### Addresses that should not be allowed -/

/-- The IPv4 addresses that should not be allowed: private (three blocks), loopback,
link-local, multicast, unspecified, and the broadcast address. -/
def forbiddenV4 : List Block :=
  [⟨10, 8⟩, ⟨172 * 16 + 1, 12⟩, ⟨192 * 256 + 168, 16⟩, ⟨127, 8⟩, ⟨169 * 256 + 254, 16⟩, ⟨14, 4⟩,
    ⟨0, 32⟩, ⟨2 ^ 32 - 1, 32⟩]

/-- The IPv6 addresses that should not be allowed: loopback, unspecified, multicast,
link-local, unique-local. -/
def forbiddenV6 : List Block :=
  [⟨1, 128⟩, ⟨0, 128⟩, ⟨0xff, 8⟩, ⟨0x3fa, 10⟩, ⟨0x7e, 7⟩]

/-- **The addresses that should not be allowed**, where an IPv4-mapped address counts as the
address it embeds. -/
def Forbidden : IpAddr → Prop
  | .v4 x => ∃ block ∈ forbiddenV4, block.Contains 32 x.toNat
  | .v6 x =>
    match x.toIpv4Mapped with
    | some v4 => ∃ block ∈ forbiddenV4, block.Contains 32 v4.toNat
    | none => ∃ block ∈ forbiddenV6, block.Contains 128 x.toNat

/-- **The IPv4 list is the right one.** -/
theorem isBlockedIp_v4_iff (x : Ipv4Addr) :
    isBlockedIp (.v4 x) = true ↔ Forbidden (.v4 x) := by
  simp only [isBlockedIp, Forbidden, forbiddenV4, Bool.or_eq_true, Ipv4Addr.isPrivate_iff,
    Ipv4Addr.isLoopback_iff, Ipv4Addr.isLinkLocal_iff, Ipv4Addr.isMulticast_iff,
    Ipv4Addr.isUnspecified_iff, Ipv4Addr.eq_broadcast_iff, List.mem_cons, List.not_mem_nil,
    or_false, exists_eq_or_imp, exists_eq_left, or_assoc]

/-! ### Hosts that are addresses -/

/-- The address a host denotes, if it is not a name. -/
def Host.literal : Host → Option IpAddr
  | domain _ => none
  | ipv4 addr => some (.v4 addr)
  | ipv6 addr => some (.v6 addr)

/-- **A name that is blocked ends with one of two letters.** -/
theorem isBlockedHostname_concat (cs : List Char) {c : Char} (ht : c.toLower ≠ 't')
    (hl : c.toLower ≠ 'l') : isBlockedHostname (String.ofList (cs ++ [c])) = false := by
  have hlower : Text.asciiLower (String.ofList (cs ++ [c]))
      = String.ofList (cs.map Char.toLower ++ [c.toLower]) := by
    rw [Text.asciiLower, String.toList_ofList, List.map_append]
    rfl
  have hends : ∀ suffix : String, suffix.toList.getLast? ≠ some c.toLower → suffix ≠ "" →
      Text.endsWith (String.ofList (cs.map Char.toLower ++ [c.toLower])) suffix = false := by
    intro suffix hlast hne
    rw [Text.endsWith, String.toList_ofList, Bool.eq_false_iff]
    intro hsuf
    obtain ⟨pre, hpre⟩ := List.isSuffixOf_iff_suffix.mp hsuf
    have hnil : suffix.toList ≠ [] := fun h => hne (String.toList_inj.mp h)
    have heq := congrArg List.getLast? hpre
    rw [List.getLast?_append_of_ne_nil _ hnil, List.getLast?_concat] at heq
    exact hlast heq
  have hlocal : (String.ofList (cs.map Char.toLower ++ [c.toLower]) == "localhost") = false := by
    rw [beq_eq_false_iff_ne]
    intro h
    have heq := congrArg (fun s => s.toList.getLast?) h
    rw [String.toList_ofList, List.getLast?_concat] at heq
    exact ht (Option.some.inj heq)
  unfold isBlockedHostname
  rw [hlower]
  dsimp only
  rw [hlocal, hends ".localhost" (fun h => ht (Option.some.inj h).symm) (by decide),
    hends ".local" (fun h => hl (Option.some.inj h).symm) (by decide)]
  rfl

/-- **A URL with an IPv6 host passes on its other merits**: neither what it is called nor what
it is makes a difference. -/
theorem validateRpcUrl_ipv6_iff {addr : Ipv6Addr} (hparse : crate.parse rpcUrl = some url)
    (hhost : url.host = some (.ipv6 addr)) :
    validateRpcUrl crate allowlistEnv rpcUrl = .ok url ↔
      PassesOtherChecks crate allowlistEnv url (.ipv6 addr) := by
  have hstr : Host.str crate (.ipv6 addr)
      = String.ofList ('[' :: (crate.ipv6Text addr).toList ++ [']']) := by
    refine String.toList_inj.mp ?_
    simp [Host.str]
  rw [validateRpcUrl_eq_ok_iff hparse hhost, hstr]
  constructor
  · rintro ⟨-, -, hpass⟩
    exact hpass
  · intro hpass
    refine ⟨isBlockedHostname_concat _ (by decide) (by decide), fun ip hip => ?_, hpass⟩
    rw [List.cons_append, parseIpAddr_bracket] at hip
    exact absurd hip (by simp)

/-- A URL with an IPv4 host is refused if its address should not be allowed. -/
theorem not_forbidden_ipv4 {addr : Ipv4Addr} (hparse : crate.parse rpcUrl = some url)
    (hhost : url.host = some (.ipv4 addr))
    (h : validateRpcUrl crate allowlistEnv rpcUrl = .ok url) : ¬Forbidden (.v4 addr) := by
  have hip := ((validateRpcUrl_eq_ok_iff hparse hhost).mp h).2.1 (.v4 addr) (parseIpAddr_text addr)
  rw [← isBlockedIp_v4_iff, hip]
  simp

/-- **When an accepted address is one that may be accepted.** Let the host of a URL be an
address. That it is accepted means that the address should be allowed, if and only if it is an
IPv4 address, or one that should be allowed anyway, or the URL does not pass the other
checks. -/
theorem not_forbidden_of_accepted_iff {addr : IpAddr} (hparse : crate.parse rpcUrl = some url)
    (hhost : url.host = some host) (hlit : host.literal = some addr) :
    (validateRpcUrl crate allowlistEnv rpcUrl = .ok url → ¬Forbidden addr) ↔
      (∃ v4, addr = .v4 v4) ∨ ¬Forbidden addr ∨ ¬PassesOtherChecks crate allowlistEnv url host := by
  cases host with
  | domain name => exact absurd hlit (by simp [Host.literal])
  | ipv4 v4 =>
    obtain rfl : IpAddr.v4 v4 = addr := Option.some.inj hlit
    exact ⟨fun _ => Or.inl ⟨v4, rfl⟩, fun _ => not_forbidden_ipv4 hparse hhost⟩
  | ipv6 v6 =>
    obtain rfl : IpAddr.v6 v6 = addr := Option.some.inj hlit
    rw [validateRpcUrl_ipv6_iff hparse hhost]
    constructor
    · intro h
      by_cases hf : Forbidden (.v6 v6)
      · exact Or.inr (Or.inr fun hpass => h hpass hf)
      · exact Or.inr (Or.inl hf)
    · rintro (⟨v4, hv4⟩ | hf | hpass)
      · exact absurd hv4 (by simp)
      · exact fun _ => hf
      · exact fun h => absurd h hpass

/-- A URL at a public IPv4 address. -/
def ipv4Url : Url where
  scheme := "https"
  username := ""
  password := none
  host := some (.ipv4 ⟨93, 184, 216, 34⟩)
  port := none

/-- A URL at the IPv6 loopback address. -/
def ipv6LoopbackUrl : Url where
  scheme := "http"
  username := ""
  password := none
  host := some (.ipv6 ⟨0, 0, 0, 0, 0, 0, 0, 1⟩)
  port := some 8545

/-- The URL library, on these two, which may have been written without their path. -/
def sampleCrate : UrlCrate where
  parse s :=
    if s ∈ ["https://93.184.216.34", "https://93.184.216.34/"] then some ipv4Url
    else if s ∈ ["http://[::1]:8545", "http://[::1]:8545/"] then some ipv6LoopbackUrl
    else none
  ipv6Text := Ipv6Addr.text

/-- The first is accepted, as it should be. -/
theorem accepts_ipv4Url :
    validateRpcUrl sampleCrate none "https://93.184.216.34" = .ok ipv4Url ∧
      ¬Forbidden (.v4 ⟨93, 184, 216, 34⟩) := by
  have haccepted : validateRpcUrl sampleCrate none "https://93.184.216.34" = .ok ipv4Url := rfl
  exact ⟨haccepted, (not_forbidden_of_accepted_iff rfl rfl rfl).mpr (Or.inl ⟨_, rfl⟩) haccepted⟩

/-- The second is accepted as well. -/
theorem accepts_ipv6LoopbackUrl :
    ¬(validateRpcUrl sampleCrate none "http://[::1]:8545" = .ok ipv6LoopbackUrl →
      ¬Forbidden (.v6 ⟨0, 0, 0, 0, 0, 0, 0, 1⟩)) := by
  intro h
  exact h rfl ⟨⟨1, 128⟩, by decide, by decide⟩

end EvmDebugger
