import EvmDebugger.RpcUrl.Names
import Std.Data.String.ToNat

/-!
# What an allowlist admits

The allowlist is a string of entries between commas. An entry is compared, as a string, with the
host of the URL and with the host and the port, so it may be of either form; and the comparison
does not know which one was meant. It need not: a host has no colon in it, or it is an IPv6
address, and ends with a bracket, and neither of them looks like a host and a port
(`EvmDebugger.hostPort_ne_host`).

Thus an entry means one host, on all ports or on one of them, and a list of entries means what its
entries mean (`EvmDebugger.allowlist_accepts_iff`).
-/

namespace EvmDebugger

open Net

/-! ### Entries -/

/-- A host and a port, as an entry may have them. -/
def hostPort (host : String) (port : ℕ) : String := host ++ ":" ++ toString port

/-- An entry, as it is compared: without white space at the ends, and in lower case. -/
def entryOf (piece : String) : String := Text.asciiLower (Text.trim piece)

/-- **What an entry admits**: the host on all ports, or on one. -/
def Admits (piece host : String) (port : ℕ) : Prop :=
  entryOf piece = Text.asciiLower host ∨ entryOf piece = hostPort (Text.asciiLower host) port

/-- The entry is one for the host, on all ports or on one. -/
def IsEntryFor (piece host : String) : Prop :=
  entryOf piece = Text.asciiLower host ∨
    ∃ port, entryOf piece = hostPort (Text.asciiLower host) port

/-- **How hosts look**: there is no colon, or a bracket at the end. -/
def IsHostText (host : String) : Prop :=
  ':' ∉ host.toList ∨ host.toList.getLast? = some ']'

/-- The port a request goes to: the one in the URL, or that of the scheme. -/
def Url.effectivePort (url : Url) : ℕ := url.port.getD (if url.scheme = "http" then 80 else 443)

/-- **The checks before the allowlist.** -/
structure PassesEarlierChecks (crate : UrlCrate) (url : Url) (host : Host) : Prop where
  scheme : url.scheme = "http" ∨ url.scheme = "https"
  username : url.username = ""
  password : url.password = none
  name : isBlockedHostname (host.str crate) = false
  address : ∀ ip, parseIpAddr (host.str crate) = some ip → isBlockedIp ip = false

variable {crate : UrlCrate} {rpcUrl v : String} {url : Url} {host : Host}

/-- A blank entry admits nothing. -/
theorem not_admits_of_blank {piece h : String} {port : ℕ} (hblank : Text.trim piece = "")
    (hne : h ≠ "") : ¬Admits piece h port := by
  rw [Admits, entryOf, hblank]
  rintro (hlower | hlower)
  · have hchars := congrArg String.toList hlower
    rw [Text.toList_asciiLower, Text.toList_asciiLower] at hchars
    exact hne (String.toList_inj.mp (List.map_eq_nil_iff.mp hchars.symm))
  · have hchars := congrArg String.toList hlower
    rw [hostPort, Text.toList_asciiLower, String.toList_append, String.toList_append] at hchars
    simp at hchars

/-! ### Hosts and ports are not confused -/

/-- A port is made of digits. -/
theorem isDigit_of_mem_port {port : ℕ} {c : Char} (h : c ∈ (toString port).toList) :
    c.isDigit = true := by
  rw [show toString port = port.repr from rfl, Nat.toList_repr] at h
  exact Nat.isDigit_of_mem_toDigits (by omega) (by omega) h

/-- The characters of a host and a port. -/
theorem toList_hostPort (host : String) (port : ℕ) :
    (hostPort host port).toList = host.toList ++ ':' :: (toString port).toList := by
  rw [hostPort, String.toList_append, String.toList_append, List.append_assoc]
  rfl

/-- **A host and a port are two things**: each can be read off. -/
theorem hostPort_inj {a b : String} {p q : ℕ} (h : hostPort a p = hostPort b q) :
    a = b ∧ p = q := by
  have hchars := congrArg (fun s => s.toList.reverse) h
  simp only [toList_hostPort, List.reverse_append, List.reverse_cons, List.append_assoc,
    List.singleton_append] at hchars
  have hcolon : ∀ n : ℕ, ':' ∉ (toString n).toList.reverse := fun n hmem =>
    absurd (isDigit_of_mem_port (List.mem_reverse.mp hmem)) (by decide)
  -- read from the end, the first colon is the one in front of the port
  obtain ⟨hport, hhost⟩ := Text.append_sep_inj (hcolon p) (hcolon q) hchars
  have hports : p.repr = q.repr := String.toList_inj.mp (List.reverse_injective hport)
  exact ⟨String.toList_inj.mp (List.reverse_injective hhost), Nat.repr_inj.mp hports⟩

/-- **A host and a port are no host.** -/
theorem hostPort_ne_host {a b : String} {p : ℕ} (hb : IsHostText b) : hostPort a p ≠ b := by
  rintro rfl
  rcases hb with hcolon | hbracket
  · refine hcolon ?_
    rw [toList_hostPort]
    exact List.mem_append_right _ List.mem_cons_self
  · rw [toList_hostPort, List.getLast?_append_of_ne_nil _ (List.cons_ne_nil _ _)] at hbracket
    rcases List.mem_cons.mp (List.mem_of_getLast? hbracket) with h | h
    · exact absurd h (by decide)
    · exact absurd (isDigit_of_mem_port h) (by decide)

/-- In lower case, a host still looks like one. -/
theorem IsHostText.asciiLower {s : String} (h : IsHostText s) : IsHostText (Text.asciiLower s) := by
  rw [IsHostText, Text.toList_asciiLower]
  refine h.imp (fun hcolon hmem => ?_) fun hbracket => ?_
  · obtain ⟨c, hc, heq⟩ := List.mem_map.mp hmem
    exact hcolon (Text.eq_colon_of_toLower heq ▸ hc)
  · rw [List.getLast?_map, hbracket]
    rfl

/-- **The host of a URL looks like one.** -/
theorem isHostText_str (hnames : crate.NamesHosts) (hparse : crate.parse rpcUrl = some url)
    (hscheme : url.scheme = "http" ∨ url.scheme = "https") (hhost : url.host = some host) :
    IsHostText (host.str crate) ∧ host.str crate ≠ "" := by
  cases host with
  | domain name =>
    obtain ⟨hne, hcolon, -⟩ := hnames _ _ _ hparse hscheme hhost
    exact ⟨Or.inl hcolon, hne⟩
  | ipv4 addr =>
    have hchars : (Host.str crate (.ipv4 addr)).toList = addr.chars := String.toList_ofList
    constructor
    · left
      rw [hchars]
      intro hmem
      have hoctet : ∀ n : UInt8, ':' ∉ octet n := fun n h =>
        absurd (Nat.isDigit_of_mem_toDigits (by omega) (by omega) h) (by decide)
      simp [Ipv4Addr.chars, hoctet] at hmem
    · intro hempty
      rw [hempty] at hchars
      simp [Ipv4Addr.chars] at hchars
  | ipv6 addr =>
    have hchars : (Host.str crate (.ipv6 addr)).toList =
        '[' :: (crate.ipv6Text addr).toList ++ [']'] := by
      simp [Host.str]
    constructor
    · right
      rw [hchars, List.getLast?_concat]
    · intro hempty
      rw [hempty] at hchars
      simp at hchars

/-! ### The allowlist -/

/-- **The entries of an allowlist**: those that are not blank. -/
theorem exists_allowlist (h : ∃ piece ∈ Text.split ',' v, Text.trim piece ≠ "") :
    ∃ allowlist, parseAllowlistEnv (some v) = some allowlist ∧ ∀ e, e ∈ allowlist ↔
      ∃ piece ∈ Text.split ',' v, Text.trim piece ≠ "" ∧ entryOf piece = e := by
  have hmem : ∀ e, e ∈ (((Text.split ',' v).map Text.trim).filter fun s => s ≠ "").map
      Text.asciiLower ↔ ∃ piece ∈ Text.split ',' v, Text.trim piece ≠ "" ∧ entryOf piece = e := by
    intro e
    simp only [List.mem_map, List.mem_filter, decide_eq_true_eq]
    constructor
    · rintro ⟨s, ⟨⟨piece, hpiece, rfl⟩, hne⟩, rfl⟩
      exact ⟨piece, hpiece, hne, rfl⟩
    · rintro ⟨piece, hpiece, hne, rfl⟩
      exact ⟨_, ⟨⟨piece, hpiece, rfl⟩, hne⟩, rfl⟩
  obtain ⟨piece, hpiece, hne⟩ := h
  have hentry := (hmem (entryOf piece)).mpr ⟨piece, hpiece, hne, rfl⟩
  refine ⟨_, ?_, hmem⟩
  rw [parseAllowlistEnv, Option.bind_some]
  dsimp only
  rw [if_neg]
  rw [List.isEmpty_iff]
  exact List.ne_nil_of_mem hentry

/-- **A host is on the list** if an entry admits it. -/
theorem allowlistMatches_iff {allowlist : List String} {h : String} {port : ℕ} :
    allowlistMatches allowlist h port = true ↔
      ∃ e ∈ allowlist, e = Text.asciiLower h ∨ e = hostPort (Text.asciiLower h) port := by
  rw [allowlistMatches, List.any_eq_true]
  simp only [Bool.or_eq_true, beq_iff_eq]
  rfl

/-- There is always a port to compare with. -/
theorem portOrKnownDefault_eq (h : url.scheme = "http" ∨ url.scheme = "https") :
    url.portOrKnownDefault = some url.effectivePort := by
  rw [Url.portOrKnownDefault, Url.effectivePort]
  cases url.port with
  | some port => rfl
  | none => rcases h with h | h <;> rw [h] <;> decide

/-- **The verdict of an allowlist**, on a URL that the checks before it have passed. -/
theorem validate_iff_admits (hnames : crate.NamesHosts) (hparse : crate.parse rpcUrl = some url)
    (hhost : url.host = some host) (hpass : PassesEarlierChecks crate url host)
    (hentry : ∃ piece ∈ Text.split ',' v, Text.trim piece ≠ "") :
    validateRpcUrl crate (some v) rpcUrl = .ok url ↔
      ∃ piece ∈ Text.split ',' v, Admits piece (host.str crate) url.effectivePort := by
  obtain ⟨allowlist, hlist, hmem⟩ := exists_allowlist hentry
  have hport := portOrKnownDefault_eq hpass.scheme
  obtain ⟨-, hne⟩ := isHostText_str hnames hparse hpass.scheme hhost
  rw [validateRpcUrl_eq_ok_iff hparse hhost]
  constructor
  · rintro ⟨-, -, hother⟩
    obtain ⟨port, hport', hmatch⟩ := hother.allowlist allowlist hlist
    obtain rfl := Option.some.inj (hport.symm.trans hport')
    obtain ⟨e, he, hadmits⟩ := allowlistMatches_iff.mp hmatch
    obtain ⟨piece, hpiece, -, rfl⟩ := (hmem e).mp he
    exact ⟨piece, hpiece, hadmits⟩
  · rintro ⟨piece, hpiece, hadmits⟩
    refine ⟨hpass.name, hpass.address, hpass.scheme, hpass.username, hpass.password, ?_⟩
    intro allowlist' hlist'
    obtain rfl := Option.some.inj (hlist.symm.trans hlist')
    refine ⟨url.effectivePort, hport, allowlistMatches_iff.mpr ⟨entryOf piece, ?_, hadmits⟩⟩
    exact (hmem _).mpr ⟨piece, hpiece, fun hblank => not_admits_of_blank hblank hne hadmits, rfl⟩

/-! ### What an entry means -/

/-- **An entry with a port** admits the host on no other port. -/
theorem not_admits_other_port {piece h : String} {p q : ℕ}
    (hentry : entryOf piece = hostPort (Text.asciiLower h) q) (hpq : q ≠ p) (hh : IsHostText h) :
    ¬Admits piece h p := by
  rw [Admits, hentry]
  rintro (heq | heq)
  · exact hostPort_ne_host hh.asciiLower heq
  · exact hpq (hostPort_inj heq).2

/-- **An entry for a host** admits no other host. -/
theorem eq_of_admits {piece a b : String} {p : ℕ} (hentry : IsEntryFor piece a)
    (ha : IsHostText a) (hb : IsHostText b) (h : Admits piece b p) :
    Text.asciiLower a = Text.asciiLower b := by
  rcases hentry with hentry | ⟨q, hentry⟩ <;> rw [Admits, hentry] at h
  · rcases h with heq | heq
    · exact heq
    · exact absurd heq.symm (hostPort_ne_host ha.asciiLower)
  · rcases h with heq | heq
    · exact absurd heq (hostPort_ne_host hb.asciiLower)
    · exact (hostPort_inj heq).1

/-- **What an allowlist accepts.** Let a URL have passed the checks before it, and let the value
of the variable have an entry that is not blank. The URL is accepted exactly if an entry is its
host, or its host and port, up to case and white space. So an entry with a port never admits the
host on another port; an entry for a host, with a port or without, never admits another host, even
if the one begins or ends with the other; and with more entries, what is accepted stays accepted. -/
theorem allowlist_accepts_iff (hnames : crate.NamesHosts) (hparse : crate.parse rpcUrl = some url)
    (hhost : url.host = some host) (hpass : PassesEarlierChecks crate url host)
    (hentry : ∃ piece ∈ Text.split ',' v, Text.trim piece ≠ "") :
    (validateRpcUrl crate (some v) rpcUrl = .ok url ↔
        ∃ piece ∈ Text.split ',' v, Admits piece (host.str crate) url.effectivePort) ∧
      (∀ piece q, entryOf piece = hostPort (Text.asciiLower (host.str crate)) q →
        q ≠ url.effectivePort → ¬Admits piece (host.str crate) url.effectivePort) ∧
      (∀ piece other, IsEntryFor piece other → IsHostText other →
        Text.asciiLower other ≠ Text.asciiLower (host.str crate) →
          ¬Admits piece (host.str crate) url.effectivePort) ∧
      ∀ w, (∀ piece ∈ Text.split ',' v, piece ∈ Text.split ',' w) →
        validateRpcUrl crate (some v) rpcUrl = .ok url →
          validateRpcUrl crate (some w) rpcUrl = .ok url := by
  obtain ⟨htext, -⟩ := isHostText_str hnames hparse hpass.scheme hhost
  have hverdict := validate_iff_admits hnames hparse hhost hpass hentry
  refine ⟨hverdict, ?_, ?_, ?_⟩
  · intro piece q hpiece hq
    exact not_admits_other_port hpiece hq htext
  · intro piece other hpiece hother hne hadmits
    exact hne (eq_of_admits hpiece hother htext hadmits)
  · intro w hsub hv
    obtain ⟨nonblank, hmem, hne⟩ := hentry
    obtain ⟨piece, hpiece, hadmits⟩ := hverdict.mp hv
    exact (validate_iff_admits hnames hparse hhost hpass ⟨nonblank, hsub _ hmem, hne⟩).mpr
      ⟨piece, hsub _ hpiece, hadmits⟩

/-- The library promises nothing of names here, for the two URLs have none. -/
theorem sampleCrate_namesHosts : sampleCrate.NamesHosts := by
  intro s url name hparse _ hhost
  simp only [sampleCrate] at hparse
  split at hparse
  · obtain rfl := Option.some.inj hparse
    exact absurd hhost (by simp [ipv4Url])
  · split at hparse
    · obtain rfl := Option.some.inj hparse
      exact absurd hhost (by simp [ipv6LoopbackUrl])
    · exact absurd hparse (by simp)

/-- An address on the list, on the port of its scheme. -/
theorem allowlist_accepts_ipv4Url :
    validateRpcUrl sampleCrate (some "example.com, 93.184.216.34:443,") "https://93.184.216.34" =
      .ok ipv4Url := by
  have hpass : PassesEarlierChecks sampleCrate ipv4Url (.ipv4 ⟨93, 184, 216, 34⟩) :=
    { scheme := Or.inr rfl
      username := rfl
      password := rfl
      name := by decide
      address := fun ip hip => by
        obtain rfl := Option.some.inj ((parseIpAddr_text _).symm.trans hip)
        decide }
  refine (allowlist_accepts_iff sampleCrate_namesHosts rfl rfl hpass ?_).1.mpr ?_
  · exact ⟨"example.com", by decide, by decide⟩
  · exact ⟨" 93.184.216.34:443", by decide, Or.inr (by decide)⟩

end EvmDebugger
