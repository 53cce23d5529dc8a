import EvmDebugger.RpcUrl

/-!
# Names of hosts, and how they are spelled

A name can be written in upper case or in lower case, and with or without a dot at the end that
stands for the root: `localhost`, `LOCALHOST` and `localhost.` are one name, and mean this machine.
The check of the name takes the case away, and then compares with `localhost` and with two
suffixes. The dot it leaves where it is, and no name that ends with a dot is blocked
(`EvmDebugger.isBlockedHostname_concat`).

So there are two verdicts on a name that should be blocked. `EvmDebugger.verdict_by_name_iff` says
for which URLs the verdict does depend on the name alone: those whose host is not blocked without
the dot, and those that are refused for something else.
-/

namespace EvmDebugger

open Net

/-! ### What the library promises -/

/-- **What the library promises of the name of a host**, in a URL whose scheme is one of the two:
there is something in it, and no colon, and it is not an address. -/
def UrlCrate.NamesHosts (crate : UrlCrate) : Prop :=
  ∀ s url name, crate.parse s = some url → url.scheme = "http" ∨ url.scheme = "https" →
    url.host = some (.domain name) →
      name ≠ "" ∧ ':' ∉ name.toList ∧ parseIpAddr name = none

/-! ### Names -/

/-- **The name a spelling denotes**: in lower case, and without a dot at the end. -/
def denotedName (name : String) : String :=
  let h := (Text.asciiLower name).toList
  String.ofList (if h.getLast? = some '.' then h.dropLast else h)

/-- Two spellings of one name. -/
def SameName (a b : String) : Prop := denotedName a = denotedName b

/-- **The names of this machine and of its network**, in lower case and without a dot at the end:
`localhost`, and whatever is below `localhost` or `local`. -/
def LocalName (name : String) : Prop :=
  name = "localhost" ∨ (∃ sub, name = sub ++ ".localhost") ∨ ∃ sub, name = sub ++ ".local"

/-- The URL is accepted. -/
def Accepts (crate : UrlCrate) (allowlistEnv : Option String) (rpcUrl : String) : Prop :=
  ∃ url, validateRpcUrl crate allowlistEnv rpcUrl = .ok url

/-- The same URL, with another host. -/
def Url.withHost (url : Url) (host : Host) : Url := { url with host := some host }

/-- **URLs that differ in the spelling of a name**, and in nothing else: `text a` is the one with
the spelling `a`. The library may change the case of the name, but it keeps a dot at the end. -/
def UrlCrate.Spelled (crate : UrlCrate) (url : Url) (name : String) (text : String → String) :
    Prop :=
  ∀ a, SameName a name → ∃ shown, Text.asciiLower shown = Text.asciiLower a ∧
    crate.parse (text a) = some (url.withHost (.domain shown))

/-- **The verdict depends on the name alone**: all spellings of it are accepted, or none; and none
is if the name is one that means this machine or its network. -/
structure VerdictByName (crate : UrlCrate) (allowlistEnv : Option String) (name : String)
    (text : String → String) : Prop where
  same : ∀ a b, SameName a name → SameName b name →
    (Accepts crate allowlistEnv (text a) ↔ Accepts crate allowlistEnv (text b))
  blocked : LocalName (denotedName name) →
    ∀ a, SameName a name → ¬Accepts crate allowlistEnv (text a)

variable {crate : UrlCrate} {allowlistEnv : Option String} {rpcUrl name a : String} {url : Url}
  {text : String → String}

/-- The check of a name takes the case away. -/
theorem isBlockedHostname_congr {a b : String} (h : Text.asciiLower a = Text.asciiLower b) :
    isBlockedHostname a = isBlockedHostname b := by
  unfold isBlockedHostname
  rw [h]

/-- **The two spellings of a name**, in lower case: without the dot and with it. -/
theorem asciiLower_eq_or (a : String) :
    Text.asciiLower a = denotedName a ∨ Text.asciiLower a = denotedName a ++ "." := by
  by_cases hdot : (Text.asciiLower a).toList.getLast? = some '.'
  · right
    rw [denotedName, if_pos hdot, ← String.toList_inj, String.toList_append, String.toList_ofList]
    obtain ⟨cs, hcs⟩ := List.getLast?_eq_some_iff.mp hdot
    rw [hcs, List.dropLast_concat]
    rfl
  · left
    rw [denotedName, if_neg hdot, String.ofList_toList]

/-- A dot at the end is what no blocked name has. -/
theorem isBlockedHostname_dot (s : String) : isBlockedHostname (s ++ ".") = false := by
  have hchars : s ++ "." = String.ofList (s.toList ++ ['.']) := by
    rw [← String.toList_inj, String.toList_ofList, String.toList_append]
    rfl
  rw [hchars]
  exact isBlockedHostname_concat _ (by decide) (by decide)

/-- What a name denotes is in lower case. -/
theorem asciiLower_denotedName (a : String) :
    Text.asciiLower (denotedName a) = denotedName a := by
  have hlower := Text.asciiLower_asciiLower a
  rcases asciiLower_eq_or a with h | h
  · rw [← h, hlower]
  · rw [h, Text.asciiLower_append] at hlower
    exact (String.append_left_inj _).mp hlower

/-- A suffix of a text is what is at its end. -/
theorem endsWith_iff {s suffix : String} :
    Text.endsWith s suffix = true ↔ ∃ sub, s = sub ++ suffix := by
  rw [Text.endsWith, List.isSuffixOf_iff_suffix]
  constructor
  · rintro ⟨cs, hcs⟩
    refine ⟨String.ofList cs, ?_⟩
    rw [← String.toList_inj, String.toList_append, String.toList_ofList, hcs]
  · rintro ⟨sub, rfl⟩
    exact ⟨sub.toList, String.toList_append.symm⟩

/-- **What is blocked is the local names**, as they are denoted. -/
theorem isBlockedHostname_denotedName (a : String) :
    isBlockedHostname (denotedName a) = true ↔ LocalName (denotedName a) := by
  unfold isBlockedHostname LocalName
  rw [asciiLower_denotedName]
  simp only [Bool.or_eq_true, beq_iff_eq, endsWith_iff, or_assoc]

/-- **A spelling is blocked** if its name is and there is no dot. -/
theorem isBlockedHostname_iff (h : SameName a name) :
    isBlockedHostname a = true ↔
      isBlockedHostname (denotedName name) = true ∧ Text.asciiLower a = denotedName name := by
  have hsame : denotedName a = denotedName name := h
  rcases asciiLower_eq_or a with hlower | hlower
  · rw [hsame] at hlower
    rw [isBlockedHostname_congr (hlower.trans (asciiLower_denotedName name).symm)]
    exact (and_iff_left hlower).symm
  · rw [hsame] at hlower
    have hdot : isBlockedHostname a = false := by
      rw [isBlockedHostname_congr (b := denotedName name ++ "."), isBlockedHostname_dot]
      rw [hlower, Text.asciiLower_append, asciiLower_denotedName]
      rfl
    rw [hdot]
    refine iff_of_false (by simp) fun hboth => ?_
    -- with the dot, it is not the name itself
    have hlen := congrArg String.length (hlower.symm.trans hboth.2)
    simp at hlen

/-! ### Verdicts -/

/-- What is accepted is what has been parsed. -/
theorem parse_of_validate (h : validateRpcUrl crate allowlistEnv rpcUrl = .ok url) :
    crate.parse rpcUrl = some url := by
  rw [validateRpcUrl] at h
  split at h
  · exact absurd h (by simp)
  · next url' hparse =>
    rw [hparse]
    -- the checks refuse the URL or return it
    repeat' split at h
    all_goals first | exact congrArg some (Except.ok.inj h) | exact absurd h (by simp)

/-- **What is accepted**, of a URL whose host is known. -/
theorem accepts_iff {host : Host} (hparse : crate.parse rpcUrl = some url)
    (hhost : url.host = some host) :
    Accepts crate allowlistEnv rpcUrl ↔
      isBlockedHostname (host.str crate) = false ∧
        (∀ ip, parseIpAddr (host.str crate) = some ip → isBlockedIp ip = false) ∧
        PassesOtherChecks crate allowlistEnv url host := by
  rw [← validateRpcUrl_eq_ok_iff hparse hhost]
  constructor
  · rintro ⟨url', h⟩
    obtain rfl := Option.some.inj (hparse.symm.trans (parse_of_validate h))
    exact h
  · exact fun h => ⟨url, h⟩

/-- Without an allowlist, the other checks do not look at the host at all. -/
theorem passesOtherChecks_withHost (hlist : parseAllowlistEnv allowlistEnv = none)
    (host host' : Host) :
    PassesOtherChecks crate allowlistEnv (url.withHost host) host ↔
      PassesOtherChecks crate allowlistEnv url host' := by
  have hnone : ∀ {P : List String → Prop} allowlist,
      parseAllowlistEnv allowlistEnv = some allowlist → P allowlist := fun {P} allowlist h =>
    absurd (hlist.symm.trans h) (by simp)
  constructor
  · exact fun h => ⟨h.scheme, h.username, h.password, hnone⟩
  · exact fun h => ⟨h.scheme, h.username, h.password, hnone⟩

/-- **The verdict on a spelling.** -/
theorem accepts_spelling (hnames : crate.NamesHosts)
    (hlist : parseAllowlistEnv allowlistEnv = none) (hspelled : crate.Spelled url name text)
    (h : SameName a name) :
    Accepts crate allowlistEnv (text a) ↔
      isBlockedHostname a = false ∧ PassesOtherChecks crate allowlistEnv url (.domain name) := by
  obtain ⟨shown, hshown, hparse⟩ := hspelled a h
  have hhost : (url.withHost (.domain shown)).host = some (.domain shown) := rfl
  rw [accepts_iff hparse hhost, passesOtherChecks_withHost hlist (.domain shown) (.domain name)]
  show isBlockedHostname shown = false ∧ _ ↔ _
  rw [isBlockedHostname_congr hshown]
  constructor
  · rintro ⟨hname, -, hpass⟩
    exact ⟨hname, hpass⟩
  · rintro ⟨hname, hpass⟩
    refine ⟨hname, fun ip hip => ?_, hpass⟩
    have hno := (hnames _ _ _ hparse hpass.scheme hhost).2.2
    exact absurd (hno.symm.trans hip) (by simp)

/-- The two spellings in lower case are spellings of the name, if it is blocked. -/
theorem sameName_of_blocked (h : isBlockedHostname (denotedName name) = true) :
    SameName (denotedName name) name ∧ SameName (denotedName name ++ ".") name := by
  have hlower := asciiLower_denotedName name
  have hnodot : (denotedName name).toList.getLast? ≠ some '.' := by
    intro hlast
    obtain ⟨cs, hcs⟩ := List.getLast?_eq_some_iff.mp hlast
    have hsplit : denotedName name = String.ofList cs ++ "." := by
      rw [← String.toList_inj, hcs, String.toList_append, String.toList_ofList]
      rfl
    rw [hsplit, isBlockedHostname_dot] at h
    exact absurd h (by simp)
  constructor
  · rw [SameName, denotedName, hlower, if_neg hnodot, String.ofList_toList]
  · have hlast : (Text.asciiLower (denotedName name ++ ".")).toList =
        (denotedName name).toList ++ ['.'] := by
      rw [Text.asciiLower_append, hlower, String.toList_append]
      rfl
    rw [SameName, denotedName, hlast, if_pos List.getLast?_concat, List.dropLast_concat,
      String.ofList_toList]

/-- **When the verdict depends on the name alone.** Without an allowlist: if the name is not that of
this machine or of its network, or if the URL is refused for its scheme or for its credentials, and
in no other case. -/
theorem verdict_by_name_iff (hnames : crate.NamesHosts)
    (hlist : parseAllowlistEnv allowlistEnv = none) (hspelled : crate.Spelled url name text) :
    VerdictByName crate allowlistEnv name text ↔
      ¬LocalName (denotedName name) ∨
        ¬PassesOtherChecks crate allowlistEnv url (.domain name) := by
  rw [← isBlockedHostname_denotedName]
  constructor
  · intro h
    by_contra hboth
    push Not at hboth
    have hblocked : isBlockedHostname (denotedName name) = true := hboth.1
    have hdot := (sameName_of_blocked hblocked).2
    -- the spelling with the dot is accepted, and the name is blocked
    refine h.blocked ((isBlockedHostname_denotedName name).mp hblocked) _ hdot
      ((accepts_spelling hnames hlist hspelled hdot).mpr ?_)
    exact ⟨isBlockedHostname_dot _, hboth.2⟩
  · rintro (hname | hpass)
    · have hspelling : ∀ a, SameName a name → isBlockedHostname a = false := by
        intro a ha
        rw [Bool.eq_false_iff]
        exact fun h => hname ((isBlockedHostname_iff ha).mp h).1
      refine ⟨fun a b ha hb => ?_, fun h =>
        absurd ((isBlockedHostname_denotedName name).mpr h) hname⟩
      rw [accepts_spelling hnames hlist hspelled ha, accepts_spelling hnames hlist hspelled hb,
        hspelling a ha, hspelling b hb]
    · have hrefused : ∀ a, SameName a name → ¬Accepts crate allowlistEnv (text a) :=
        fun a ha h => hpass ((accepts_spelling hnames hlist hspelled ha).mp h).2
      exact ⟨fun a b ha hb => iff_of_false (hrefused a ha) (hrefused b hb),
        fun _ a ha => hrefused a ha⟩

/-! ### A name that is blocked, and one that is not -/

/-- A URL at a name. -/
def namedUrl (name : String) : Url where
  scheme := "http"
  username := ""
  password := none
  host := some (.domain name)
  port := some 8545

/-- How it is written. -/
def namedText (name : String) : String := "http://" ++ name ++ ":8545"

/-- The URL library, on the URLs at two names: it shows them in lower case. -/
def namedCrate : UrlCrate where
  parse s :=
    (["localhost", "localhost.", "example.com", "example.com."].find? fun name =>
      Text.asciiLower s = namedText name).map namedUrl
  ipv6Text := Ipv6Addr.text

theorem namedCrate_namesHosts : namedCrate.NamesHosts := by
  intro s url name hparse _ hhost
  obtain ⟨name', hfind, rfl⟩ := Option.map_eq_some_iff.mp hparse
  obtain rfl := Host.domain.inj (Option.some.inj hhost)
  have hmem := List.mem_of_find?_eq_some hfind
  simp only [List.mem_cons, List.not_mem_nil, or_false] at hmem
  rcases hmem with rfl | rfl | rfl | rfl <;> decide

/-- Written in whatever case, it is parsed, and shown in lower case. -/
theorem namedCrate_parse {a b : String} (h : Text.asciiLower a = b)
    (hb : b = "localhost" ∨ b = "localhost." ∨ b = "example.com" ∨ b = "example.com.") :
    namedCrate.parse (namedText a) = some (namedUrl b) := by
  have hlower : Text.asciiLower (namedText a) = namedText b := by
    rw [namedText, Text.asciiLower_append, Text.asciiLower_append, h]
    rfl
  rw [namedCrate]
  dsimp only
  rw [hlower]
  rcases hb with rfl | rfl | rfl | rfl <;> decide

/-- All spellings of the name are parsed. -/
theorem namedCrate_spelled {name : String} (hdenoted : denotedName name = name)
    (hname : name = "localhost" ∨ name = "example.com") :
    namedCrate.Spelled (namedUrl name) name namedText := by
  intro a ha
  have hlower : Text.asciiLower a = name ∨ Text.asciiLower a = name ++ "." := by
    have hor := asciiLower_eq_or a
    rwa [show denotedName a = name from ha.trans hdenoted] at hor
  refine ⟨Text.asciiLower a, Text.asciiLower_asciiLower a, namedCrate_parse rfl ?_⟩
  rcases hlower with h | h <;> rcases hname with rfl | rfl <;> rw [h] <;> simp

/-- The verdict on `example.com` depends on the name alone. -/
theorem verdict_by_name_example : VerdictByName namedCrate none "example.com" namedText :=
  (verdict_by_name_iff namedCrate_namesHosts rfl
    (namedCrate_spelled (by decide) (Or.inr rfl))).mpr
      (Or.inl ((isBlockedHostname_denotedName _).not.mp (by decide)))

/-- **With a dot at the end, this machine is accepted.** -/
theorem not_verdict_by_name_localhost :
    ¬VerdictByName namedCrate none "localhost" namedText := by
  intro h
  have hsame : SameName "localhost." "localhost" :=
    show denotedName "localhost." = denotedName "localhost" by decide
  have hparse : namedCrate.parse (namedText "localhost.") = some (namedUrl "localhost.") :=
    namedCrate_parse (by decide) (Or.inr (Or.inl rfl))
  refine h.blocked (Or.inl (by decide)) "localhost." hsame ⟨namedUrl "localhost.", ?_⟩
  rw [validateRpcUrl, hparse]
  decide

end EvmDebugger
