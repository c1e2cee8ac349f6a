import CommandRelay.Push.Endpoint
import Mathlib.Data.List.Basic

/-!
# What the endpoint guard admits

The guard wants public host names.  It treats every spelling of a host alike, but for the
fully qualified one: the root dot of a local name hides it.
-/

namespace CommandRelay

/-!
## Public names
-/

def lowered (host : String) : List Char :=
  host.toList.map Char.toLower

def withoutRoot (name : List Char) : List Char :=
  if name.getLast? = some '.' then name.dropLast else name

def isLocalName (name : List Char) : Bool :=
  name = "localhost".toList || ".localhost".toList.isSuffixOf name ||
    ".local".toList.isSuffixOf name

def IsIpLiteral (name : List Char) : Prop :=
  IpAddr.parses (String.ofList name) = true ∨
    exists text, name = '[' :: text ++ [']'] ∧ IpAddr.parses (String.ofList text) = true

/-- A host name is public when it is, in any spelling, neither an address nor local. -/
structure PublicName (host : String) : Prop where
  name : ¬ IsIpLiteral (withoutRoot (lowered host))
  elsewhere : isLocalName (withoutRoot (lowered host)) = false

/-- The endpoint is an HTTPS URL with a public host name. -/
def PublicEndpoint (parseUrl : String -> Option Url) (endpoint : String) : Prop :=
  exists url host, parseUrl endpoint = some url ∧ url.scheme = "https" ∧
    url.host = some host ∧ PublicName host

/-- The endpoint is an HTTPS URL whose host is a local name with a root dot. -/
def RootedLocal (parseUrl : String -> Option Url) (endpoint : String) : Prop :=
  exists url host name, parseUrl endpoint = some url ∧ url.scheme = "https" ∧
    url.host = some host ∧ lowered host = name ++ ['.'] ∧ isLocalName name = true

/-!
## What a URL parser returns as a host
-/

def dotted (a b c d : UInt8) : List Char :=
  Nat.toDigits 10 a.toNat ++ '.' :: (Nat.toDigits 10 b.toNat ++
    '.' :: (Nat.toDigits 10 c.toNat ++ '.' :: Nat.toDigits 10 d.toNat))

/-- A text in lower case and without brackets. -/
structure PlainText (text : List Char) : Prop where
  lower : text.map Char.toLower = text
  opening : '[' ∉ text
  closing : ']' ∉ text

/-- The text form of a host: an IPv4 address in dotted decimal, an IPv6 address in
brackets, or a domain, which is no address. -/
inductive HostForm : String -> Prop where
  | ipv4 (a b c d : UInt8) : HostForm (String.ofList (dotted a b c d))
  | ipv6 {text : List Char} (hplain : PlainText text)
      (haddress : IpAddr.parses (String.ofList text) = true) :
      HostForm (String.ofList ('[' :: text ++ [']']))
  | domain {name : List Char} (hplain : PlainText name)
      (hname : IpAddr.parses (String.ofList name) = false)
      (hbare : IpAddr.parses (String.ofList (withoutRoot name)) = false) :
      HostForm (String.ofList name)

/-- The parser returns canonical hosts of https URLs. -/
def CanonicalHosts (parseUrl : String -> Option Url) : Prop :=
  forall endpoint url host, parseUrl endpoint = some url -> url.scheme = "https" ->
    url.host = some host -> HostForm host

/-!
## Dotted addresses
-/

namespace IpAddr

/-- What the reader and the guard need of the digits of an octet. -/
structure OctetText (digits : List Char) : Prop where
  numeric : forall c, c ∈ digits -> (digitValue 10 c).isSome = true
  plain : forall c, c ∈ digits -> c.toLower = c ∧ c ≠ '[' ∧ c ≠ ']' ∧ c ≠ '.'
  nonempty : digits ≠ []
  short : digits.length ≤ 3
  zero : digits.head? = some '0' -> digits.length ≤ 1
  value : digits.foldl (fun acc c => acc * 10 + (digitValue 10 c).getD 0) 0 ≤ 255

theorem octetText_toDigits (n : UInt8) : OctetText (Nat.toDigits 10 n.toNat) := by
  have hall : forall i : Fin 256,
      (Nat.toDigits 10 i.val).all (fun c => (digitValue 10 c).isSome &&
        (c.toLower = c ∧ c ≠ '[' ∧ c ≠ ']' ∧ c ≠ '.')) = true ∧
      Nat.toDigits 10 i.val ≠ [] ∧ (Nat.toDigits 10 i.val).length ≤ 3 ∧
      ((Nat.toDigits 10 i.val).head? = some '0' -> (Nat.toDigits 10 i.val).length ≤ 1) ∧
      (Nat.toDigits 10 i.val).foldl (fun acc c => acc * 10 + (digitValue 10 c).getD 0) 0 ≤ 255 := by
    decide +kernel
  rcases hall ⟨n.toNat, n.toNat_lt⟩ with ⟨hchars, hnonempty, hshort, hzero, hvalue⟩
  have hchar : forall c, c ∈ Nat.toDigits 10 n.toNat -> (digitValue 10 c).isSome = true ∧
      (c.toLower = c ∧ c ≠ '[' ∧ c ≠ ']' ∧ c ≠ '.') := by
    intro c hc
    have hboth := List.all_eq_true.mp hchars c hc
    rw [Bool.and_eq_true, decide_eq_true_eq] at hboth
    exact hboth
  exact
    { numeric := fun c hc => (hchar c hc).1
      plain := fun c hc => (hchar c hc).2
      nonempty := hnonempty
      short := hshort
      zero := hzero
      value := hvalue }

theorem readNumber_octet {digits rest : List Char} (h : OctetText digits)
    (hrest : rest.takeWhile (fun c => (digitValue 10 c).isSome) = []) :
    readNumber 10 3 255 false (digits ++ rest) = some rest := by
  have htake : (digits ++ rest).takeWhile (fun c => (digitValue 10 c).isSome) = digits := by
    rw [List.takeWhile_append_of_pos h.numeric, hrest, List.append_nil]
  have hlength : ¬ (digits.length = 0 ∨ 3 < digits.length) := by
    have hpos := List.length_pos_iff.mpr h.nonempty
    have hshort := h.short
    omega
  have hzero : ¬ ((!false) = true ∧ (digits ++ rest).head? = some '0' ∧ 1 < digits.length) := by
    rintro ⟨_, hhead, hlong⟩
    rw [List.head?_append_of_ne_nil _ h.nonempty] at hhead
    exact absurd (h.zero hhead) (Nat.not_le.mpr hlong)
  unfold readNumber
  simp only [htake]
  rw [if_neg hlength, if_neg hzero, if_neg (Nat.not_lt.mpr h.value), List.drop_left' rfl]

theorem readIpv4_dotted (a b c d : UInt8) : readIpv4 (dotted a b c d) = some [] := by
  have hsep : forall rest : List Char,
      ('.' :: rest).takeWhile (fun c => (digitValue 10 c).isSome) = [] := fun _ => rfl
  have ha := fun rest => readNumber_octet (octetText_toDigits a) (hsep rest)
  have hb := fun rest => readNumber_octet (octetText_toDigits b) (hsep rest)
  have hc := fun rest => readNumber_octet (octetText_toDigits c) (hsep rest)
  have hd : readNumber 10 3 255 false (Nat.toDigits 10 d.toNat ++ []) = some [] :=
    readNumber_octet (octetText_toDigits d) rfl
  rw [List.append_nil] at hd
  simp [readIpv4, readOctets, readSeparator, readChar, dotted, ha, hb, hc, hd]

theorem parses_dotted (a b c d : UInt8) :
    parses (String.ofList (dotted a b c d)) = true := by
  simp [parses, String.toList_ofList, readIpv4_dotted]

end IpAddr

theorem mem_dotted {a b c d : UInt8} {x : Char} (h : x ∈ dotted a b c d) :
    x.toLower = x ∧ x ≠ '[' ∧ x ≠ ']' := by
  have hdigit : forall n : UInt8, x ∈ Nat.toDigits 10 n.toNat ->
      x.toLower = x ∧ x ≠ '[' ∧ x ≠ ']' := by
    intro n hx
    rcases (IpAddr.octetText_toDigits n).plain x hx with ⟨hlower, hopening, hclosing, _⟩
    exact ⟨hlower, hopening, hclosing⟩
  simp only [dotted, List.mem_append, List.mem_cons] at h
  rcases h with h | rfl | h | rfl | h | rfl | h
  · exact hdigit a h
  · decide
  · exact hdigit b h
  · decide
  · exact hdigit c h
  · decide
  · exact hdigit d h

theorem plainText_dotted (a b c d : UInt8) : PlainText (dotted a b c d) where
  lower := by
    have hmap : (dotted a b c d).map Char.toLower = (dotted a b c d).map id :=
      List.map_congr_left fun x hx => (mem_dotted hx).1
    rw [hmap, List.map_id]
  opening := fun hx => (mem_dotted hx).2.1 rfl
  closing := fun hx => (mem_dotted hx).2.2 rfl

theorem last_dotted (a b c d : UInt8) : (dotted a b c d).getLast? ≠ some '.' := by
  intro hlast
  have hd := IpAddr.octetText_toDigits d
  have hsame : (dotted a b c d).getLast? = (Nat.toDigits 10 d.toNat).getLast? := by
    simp [dotted, List.getLast?_append, List.getLast?_cons,
      List.getLast?_eq_some_getLast hd.nonempty]
  rw [hsame] at hlast
  exact (hd.plain '.' (List.mem_of_getLast? hlast)).2.2.2 rfl

/-!
## The guard
-/

def withoutBrackets (host : List Char) : List Char :=
  ((host.dropWhile (· = '[')).reverse.dropWhile (· = ']')).reverse

theorem dropWhile_of_not_mem {c : Char} {text : List Char} (h : c ∉ text) :
    text.dropWhile (· = c) = text := by
  cases text with
  | nil => rfl
  | cons first rest =>
      have hne : first ≠ c := fun heq => h (heq ▸ List.mem_cons_self)
      exact List.dropWhile_cons_of_neg (by simpa using hne)

theorem withoutBrackets_plain {text : List Char} (h : PlainText text) :
    withoutBrackets text = text := by
  have hreverse : ']' ∉ text.reverse := by
    rw [List.mem_reverse]
    exact h.closing
  rw [withoutBrackets, dropWhile_of_not_mem h.opening, dropWhile_of_not_mem hreverse,
    List.reverse_reverse]

theorem withoutBrackets_bracketed {text : List Char} (h : PlainText text) :
    withoutBrackets ('[' :: text ++ [']']) = text := by
  have hopening : '[' ∉ text ++ [']'] := by
    intro hmem
    rcases List.mem_append.mp hmem with htext | hlast
    · exact h.opening htext
    · cases List.mem_singleton.mp hlast
  have hreverse : ']' ∉ text.reverse := by
    rw [List.mem_reverse]
    exact h.closing
  have hfront : ('[' :: text ++ [']']).dropWhile (· = '[') = text ++ [']'] := by
    rw [List.cons_append, List.dropWhile_cons_of_pos (by decide)]
    exact dropWhile_of_not_mem hopening
  rw [withoutBrackets, hfront, List.reverse_append, List.reverse_singleton,
    List.singleton_append, List.dropWhile_cons_of_pos (by decide),
    dropWhile_of_not_mem hreverse, List.reverse_reverse]

theorem last_of_isLocalName {name : List Char} (h : isLocalName name = true) :
    name.getLast? ≠ some '.' := by
  have hsuffix : forall tail : List Char, tail <:+ name -> tail.getLast? ≠ none ->
      name.getLast? = tail.getLast? := by
    rintro tail ⟨front, rfl⟩ htail
    cases hlast : tail.getLast? with
    | none => exact absurd hlast htail
    | some c => simp [List.getLast?_append, hlast]
  simp only [isLocalName, Bool.or_eq_true, decide_eq_true_eq, List.isSuffixOf_iff_suffix] at h
  rcases h with (rfl | hlocalhost) | hlocal
  · decide
  · rw [hsuffix _ hlocalhost (by decide)]
    decide
  · rw [hsuffix _ hlocal (by decide)]
    decide

section

variable {parseUrl : String -> Option Url} {endpoint host : String} {url : Url}

theorem guard_eq (hparse : parseUrl endpoint = some url) (hscheme : url.scheme = "https")
    (hhost : url.host = some host) :
    isValidPushEndpoint parseUrl endpoint =
      (!IpAddr.parses (String.ofList (withoutBrackets host.toList)) &&
        !isLocalName (lowered host)) := by
  unfold isValidPushEndpoint
  rw [hparse]
  simp only [hscheme, ne_eq, not_true_eq_false, if_false, hhost]
  cases hip : IpAddr.parses (String.ofList (withoutBrackets host.toList)) with
  | true => exact if_pos hip
  | false =>
      rw [withoutBrackets] at hip
      rw [hip]
      rfl

theorem parts_of_guard (h : isValidPushEndpoint parseUrl endpoint = true) :
    exists url host, parseUrl endpoint = some url ∧ url.scheme = "https" ∧
      url.host = some host := by
  unfold isValidPushEndpoint at h
  cases hparse : parseUrl endpoint with
  | none =>
      rw [hparse] at h
      cases h
  | some url =>
      rw [hparse] at h
      by_cases hscheme : url.scheme = "https"
      · cases hhost : url.host with
        | none => simp [hscheme, hhost] at h
        | some host => exact ⟨url, host, rfl, hscheme, hhost⟩
      · simp [hscheme] at h

theorem lowered_ofList {text : List Char} (h : text.map Char.toLower = text) :
    lowered (String.ofList text) = text := by
  rw [lowered, String.toList_ofList, h]

theorem withoutRoot_of_last {name : List Char} (h : name.getLast? ≠ some '.') :
    withoutRoot name = name :=
  if_neg h

@[simp] theorem withoutRoot_append (name : List Char) : withoutRoot (name ++ ['.']) = name := by
  rw [withoutRoot, if_pos (by simp), List.dropLast_concat]

theorem guard_literal_iff {text : List Char} (hlower : lowered host = text)
    (hlast : text.getLast? ≠ some '.') (hliteral : IsIpLiteral text)
    (hip : IpAddr.parses (String.ofList (withoutBrackets host.toList)) = true) :
    ((IpAddr.parses (String.ofList (withoutBrackets host.toList)) = false ∧
        isLocalName (lowered host) = false) <-> PublicName host) <->
      ¬ exists name, lowered host = name ++ ['.'] ∧ isLocalName name = true := by
  subst hlower
  have hprivate : ¬ PublicName host := fun h => h.name (by rwa [withoutRoot_of_last hlast])
  have hunrooted : ¬ exists name, lowered host = name ++ ['.'] ∧ isLocalName name = true := by
    rintro ⟨name, hname, _⟩
    rw [hname] at hlast
    exact hlast (by simp)
  simp [hip, hprivate, hunrooted]

theorem publicName_domain_iff {name : List Char} (hplain : PlainText name)
    (hbare : IpAddr.parses (String.ofList (withoutRoot name)) = false) :
    PublicName (String.ofList name) <-> isLocalName (withoutRoot name) = false := by
  have hliteral : ¬ IsIpLiteral (withoutRoot name) := by
    rintro (hip | ⟨text, htext, _⟩)
    · rw [hbare] at hip
      cases hip
    · have hmem : '[' ∈ withoutRoot name := by
        rw [htext]
        exact List.mem_cons_self
      unfold withoutRoot at hmem
      split at hmem
      · exact hplain.opening (List.dropLast_subset name hmem)
      · exact hplain.opening hmem
  have hlower := lowered_ofList hplain.lower
  constructor
  · intro h
    rw [← hlower]
    exact h.elsewhere
  · intro h
    rw [← hlower] at hliteral h
    exact ⟨hliteral, h⟩

theorem isLocalName_agree_iff (name : List Char) :
    (isLocalName name = false <-> isLocalName (withoutRoot name) = false) <->
      ¬ exists bare, name = bare ++ ['.'] ∧ isLocalName bare = true := by
  by_cases hroot : name.getLast? = some '.'
  · rcases List.getLast?_eq_some_iff.mp hroot with ⟨bare, rfl⟩
    have hdotted : isLocalName (bare ++ ['.']) = false := by
      rw [← Bool.not_eq_true]
      exact fun hlocal => last_of_isLocalName hlocal hroot
    simp only [hdotted, true_iff, withoutRoot_append, List.append_left_inj, exists_eq_left',
      Bool.not_eq_true]
  · have hunrooted : ¬ exists bare, name = bare ++ ['.'] ∧ isLocalName bare = true := by
      rintro ⟨bare, hdot, _⟩
      exact hroot (by rw [hdot, List.getLast?_concat])
    rw [withoutRoot_of_last hroot]
    simp only [hunrooted, not_false_eq_true]

/-- The guard and the public names agree on a canonical host, unless it is a local name with
a root dot. -/
theorem guard_host_iff (hform : HostForm host) :
    ((IpAddr.parses (String.ofList (withoutBrackets host.toList)) = false ∧
        isLocalName (lowered host) = false) <-> PublicName host) <->
      ¬ exists name, lowered host = name ++ ['.'] ∧ isLocalName name = true := by
  cases hform with
  | ipv4 a b c d =>
      have hplain := plainText_dotted a b c d
      have haddress := IpAddr.parses_dotted a b c d
      apply guard_literal_iff (lowered_ofList hplain.lower) (last_dotted a b c d)
        (Or.inl haddress)
      rw [String.toList_ofList, withoutBrackets_plain hplain]
      exact haddress
  | @ipv6 text hplain haddress =>
      have hlower : ('[' :: text ++ [']']).map Char.toLower = '[' :: text ++ [']'] := by
        rw [List.map_append, List.map_cons, hplain.lower]
        rfl
      have hlast : ('[' :: text ++ [']']).getLast? ≠ some '.' := by
        rw [List.getLast?_concat]
        decide
      apply guard_literal_iff (lowered_ofList hlower) hlast (Or.inr ⟨text, rfl, haddress⟩)
      rw [String.toList_ofList, withoutBrackets_bracketed hplain]
      exact haddress
  | @domain name hplain hname hbare =>
      rw [String.toList_ofList, withoutBrackets_plain hplain, publicName_domain_iff hplain hbare,
        lowered_ofList hplain.lower, hname]
      simpa only [true_and] using isLocalName_agree_iff name

/-- The guard answers as the public names ask, exactly when the host is not a local name with
a root dot. -/
theorem guard_public_iff (hcanonical : CanonicalHosts parseUrl) (endpoint : String) :
    (isValidPushEndpoint parseUrl endpoint = true <-> PublicEndpoint parseUrl endpoint) <->
      ¬ RootedLocal parseUrl endpoint := by
  by_cases hparts : exists url host, parseUrl endpoint = some url ∧ url.scheme = "https" ∧
      url.host = some host
  · rcases hparts with ⟨url, host, hparse, hscheme, hhost⟩
    have hpublic : PublicEndpoint parseUrl endpoint <-> PublicName host := by
      constructor
      · rintro ⟨url', host', hparse', _, hhost', h⟩
        cases hparse.symm.trans hparse'
        cases hhost.symm.trans hhost'
        exact h
      · exact fun h => ⟨url, host, hparse, hscheme, hhost, h⟩
    have hrooted : RootedLocal parseUrl endpoint <->
        exists name, lowered host = name ++ ['.'] ∧ isLocalName name = true := by
      constructor
      · rintro ⟨url', host', name, hparse', _, hhost', h⟩
        cases hparse.symm.trans hparse'
        cases hhost.symm.trans hhost'
        exact ⟨name, h⟩
      · rintro ⟨name, h⟩
        exact ⟨url, host, name, hparse, hscheme, hhost, h⟩
    rw [guard_eq hparse hscheme hhost, hpublic, hrooted, Bool.and_eq_true, Bool.not_eq_true',
      Bool.not_eq_true']
    exact guard_host_iff (hcanonical endpoint url host hparse hscheme hhost)
  · have hrefused : ¬ isValidPushEndpoint parseUrl endpoint = true :=
      fun h => hparts (parts_of_guard h)
    have hprivate : ¬ PublicEndpoint parseUrl endpoint := by
      rintro ⟨url, host, hparse, hscheme, hhost, _⟩
      exact hparts ⟨url, host, hparse, hscheme, hhost⟩
    have hunrooted : ¬ RootedLocal parseUrl endpoint := by
      rintro ⟨url, host, name, hparse, hscheme, hhost, _⟩
      exact hparts ⟨url, host, hparse, hscheme, hhost⟩
    simp [hrefused, hprivate, hunrooted]

end

def twoUrls (endpoint : String) : Option Url :=
  if endpoint = "https://push.example.com/send" then some ⟨"https", some "push.example.com"⟩
  else if endpoint = "https://localhost./admin" then some ⟨"https", some "localhost."⟩
  else none

theorem hostForm_domain {host : String} (hplain : PlainText host.toList)
    (hname : IpAddr.parses host = false)
    (hbare : IpAddr.parses (String.ofList (withoutRoot host.toList)) = false) : HostForm host := by
  rw [← String.ofList_toList (s := host)]
  refine .domain hplain ?_ hbare
  rw [String.ofList_toList]
  exact hname

theorem canonical_twoUrls : CanonicalHosts twoUrls := by
  intro endpoint url host hparse _ hhost
  unfold twoUrls at hparse
  split at hparse
  · cases hparse
    cases hhost
    exact hostForm_domain ⟨by decide, by decide, by decide⟩ (by decide) (by decide)
  · split at hparse
    · cases hparse
      cases hhost
      exact hostForm_domain ⟨by decide, by decide, by decide⟩ (by decide) (by decide)
    · cases hparse

theorem guard_public_iff_example :
    (isValidPushEndpoint twoUrls "https://push.example.com/send" = true <->
        PublicEndpoint twoUrls "https://push.example.com/send") <->
      ¬ RootedLocal twoUrls "https://push.example.com/send" :=
  guard_public_iff canonical_twoUrls "https://push.example.com/send"

/-- The machine itself, fully qualified. -/
theorem rooted_localhost_admitted :
    CanonicalHosts twoUrls ∧
      isValidPushEndpoint twoUrls "https://localhost./admin" = true ∧
      ¬ PublicEndpoint twoUrls "https://localhost./admin" := by
  refine ⟨canonical_twoUrls, by decide, ?_⟩
  rintro ⟨url, host, hparse, _, hhost, hpublic⟩
  cases hparse
  cases hhost
  exact absurd hpublic.elsewhere (by decide)

end CommandRelay
