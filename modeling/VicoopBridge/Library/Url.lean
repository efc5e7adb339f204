import VicoopBridge.Library.UriComponent

/-! # URLs of the scheme https

The URL parser of the WHATWG standard on absolute https URLs, and its setter of the path. The host
parser, with its tables of domain names, is a parameter. -/

namespace VicoopBridge.Library

/-- The code points that no host has, be it a domain or an address in brackets. -/
def isForbiddenInHost (c : Char) : Bool :=
  c.toNat ≤ 0x20 || c.toNat = 0x7F || c ∈ ['#', '/', '<', '>', '?', '@', '\\', '^', '|', '%']

/-- What the host parser makes of a domain that is percent-decoded already, or of an address in
brackets. -/
structure HostParser where
  parse : List Char → Option (List Char)
  refuses : ∀ text, ∀ c ∈ text, isForbiddenInHost c = true → parse text = none

structure Url where
  scheme : List Char
  username : List Char
  password : List Char
  host : List Char
  port : Option ℕ
  path : List (List Char)
  query : Option (List Char)
  fragment : Option (List Char)
  deriving DecidableEq

namespace Url

open UriComponent

/-! ## Percent-encoding -/

def percentEncode (set : Char → Bool) (text : List Char) : List Char :=
  text.flatMap fun c => if set c then (String.utf8EncodeChar c).flatMap escape else [c]

def isC0Control (c : Char) : Bool := c.toNat ≤ 0x1F || 0x7E < c.toNat

def inFragmentSet (c : Char) : Bool := isC0Control c || c.toNat ∈ [0x20, 0x22, 0x3C, 0x3E, 0x60]

def inQuerySet (c : Char) : Bool := isC0Control c || c.toNat ∈ [0x20, 0x22, 0x23, 0x3C, 0x3E]

def inSpecialQuerySet (c : Char) : Bool := inQuerySet c || c.toNat = 0x27

def inPathSet (c : Char) : Bool := inQuerySet c || c.toNat ∈ [0x3F, 0x5E, 0x60, 0x7B, 0x7D]

def inUserinfoSet (c : Char) : Bool :=
  inPathSet c || c.toNat ∈ [0x2F, 0x3A, 0x3B, 0x3D, 0x40, 0x5B, 0x5C, 0x5D, 0x7C]

/-- The byte that is escaped so. -/
def escapedByte (percent high low : UInt8) : Option UInt8 :=
  if percent = 0x25 then
    (hexByte (UInt16.ofNat high.toNat) (UInt16.ofNat low.toNat)).map UInt8.ofNat
  else none

def percentDecode : List UInt8 → List UInt8
  | b :: high :: low :: rest =>
      match escapedByte b high low with
      | some decoded => decoded :: percentDecode rest
      | none => b :: percentDecode (high :: low :: rest)
  | bytes => bytes

/-! ## The path -/

def isSlash (c : Char) : Bool := c = '/' || c = '\\'

def isSingleDot (segment : List Char) : Bool :=
  segment ∈ [".".toList, "%2e".toList, "%2E".toList]

def isDoubleDot (segment : List Char) : Bool :=
  segment ∈ ["..".toList, ".%2e".toList, ".%2E".toList, "%2e.".toList, "%2E.".toList,
    "%2e%2e".toList, "%2e%2E".toList, "%2E%2e".toList, "%2E%2E".toList]

/-- Dot segments are resolved; at the end of the path they leave an empty segment. -/
def resolveSegments (path : List (List Char)) : List (List Char) → List (List Char)
  | [] => path
  | segment :: rest =>
      let segment := percentEncode inPathSet segment
      let path := if isDoubleDot segment then path.dropLast
        else if isSingleDot segment then path
        else path ++ [segment]
      let path := if rest = [] && (isDoubleDot segment || isSingleDot segment) then path ++ [[]]
        else path
      resolveSegments path rest

def parsePath (text : List Char) : List (List Char) :=
  let text := if text.head?.any isSlash then text.tail else text
  resolveSegments [] (text.splitOnP isSlash)

/-! ## The authority -/

/-- What stands before the last `@`, and behind it. -/
def splitCredentials (authority : List Char) : Option (List Char × List Char) :=
  let behind := authority.reverse.takeWhile (· ≠ '@')
  match authority.reverse.dropWhile (· ≠ '@') with
  | [] => none
  | _ :: before => some (before.reverse, behind.reverse)

def parseUsername (credentials : List Char) : List Char :=
  percentEncode inUserinfoSet (credentials.takeWhile (· ≠ ':'))

def parsePassword (credentials : List Char) : List Char :=
  percentEncode inUserinfoSet (credentials.dropWhile (· ≠ ':')).tail

/-- The host, and what stands behind the first colon outside of brackets. -/
def splitPort (insideBrackets : Bool) : List Char → List Char × Option (List Char)
  | [] => ([], none)
  | c :: rest =>
      if c = ':' && !insideBrackets then ([], some rest)
      else
        let (host, port) := splitPort (c = '[' || (insideBrackets && c ≠ ']')) rest
        (c :: host, port)

/-- The port of the scheme is left out. -/
def parsePort (defaultPort : ℕ) (digits : List Char) : Option (Option ℕ) :=
  if !digits.all Char.isDigit then none
  else if digits = [] then some none
  else
    let port := Nat.ofDigitChars 10 digits 0
    if 65535 < port then none else if port = defaultPort then some none else some (some port)

def decodeHost (text : List Char) : List Char :=
  decodeUtf8 (percentDecode (text.flatMap String.utf8EncodeChar))

def parseHost (hosts : HostParser) (text : List Char) : Option (List Char) :=
  if text = [] then none
  else if text.head? = some '[' then hosts.parse text
  else hosts.parse (decodeHost text)

/-! ## The parser -/

def endsAuthority (c : Char) : Bool := isSlash c || c = '?' || c = '#'

def isTabOrNewline (c : Char) : Bool := c = '\t' || c = '\n' || c = '\r'

def isControlOrSpace (c : Char) : Bool := c.toNat ≤ 0x20

/-- Controls and spaces at the ends are dropped, tabs and newlines everywhere. -/
def clean (input : List Char) : List Char :=
  let input := input.dropWhile isControlOrSpace
  let input := (input.reverse.dropWhile isControlOrSpace).reverse
  input.filter fun c => !isTabOrNewline c

/-- What follows the scheme. -/
def parseSpecial (hosts : HostParser) (scheme : List Char) (defaultPort : ℕ) (text : List Char) :
    Option Url := do
  let text := text.dropWhile isSlash
  let authority := text.takeWhile fun c => !endsAuthority c
  let rest := text.dropWhile fun c => !endsAuthority c
  let (credentials, hostport) := (splitCredentials authority).getD ([], authority)
  let (name, digits) := splitPort false hostport
  let host ← parseHost hosts name
  let port ← parsePort defaultPort (digits.getD [])
  let fragment := rest.dropWhile (· ≠ '#')
  let rest := rest.takeWhile (· ≠ '#')
  let query := rest.dropWhile (· ≠ '?')
  return {
    scheme := scheme
    username := parseUsername credentials
    password := parsePassword credentials
    host := host
    port := port
    path := parsePath (rest.takeWhile (· ≠ '?'))
    query := query.tail?.map (percentEncode inSpecialQuerySet)
    fragment := fragment.tail?.map (percentEncode inFragmentSet) }

/-- `new URL` of an absolute https URL, its scheme in lower case. -/
def parse (hosts : HostParser) (input : List Char) : Option Url :=
  let text := clean input
  if "https:".toList <+: text then parseSpecial hosts "https".toList 443 (text.drop 6) else none

/-- The setter of `pathname`. -/
def setPathname (url : Url) (value : List Char) : Url :=
  { url with path := parsePath (value.filter fun c => !isTabOrNewline c) }

/-! ## Texts that are taken as they are -/

theorem percentEncode_eq_self {set : Char → Bool} {text : List Char}
    (h : ∀ c ∈ text, set c = false) : percentEncode set text = text := by
  induction text with
  | nil => rfl
  | cons c text ih =>
      have hc : set c = false := h c List.mem_cons_self
      have hrest := ih fun d hmem => h d (List.mem_cons_of_mem c hmem)
      simpa [percentEncode, hc] using hrest

/-- A segment that the path takes as it is. -/
structure IsPlain (segment : List Char) : Prop where
  chars : ∀ c ∈ segment, inPathSet c = false ∧ isSlash c = false
  notSingleDot : isSingleDot segment = false
  notDoubleDot : isDoubleDot segment = false

theorem resolveSegments_plain {segments : List (List Char)} (h : ∀ s ∈ segments, IsPlain s)
    (path : List (List Char)) : resolveSegments path segments = path ++ segments := by
  induction segments generalizing path with
  | nil => exact (List.append_nil path).symm
  | cons segment rest ih =>
      have hplain := h segment List.mem_cons_self
      have hencode : percentEncode inPathSet segment = segment :=
        percentEncode_eq_self fun c hmem => (hplain.chars c hmem).1
      rw [resolveSegments]
      simp only [hencode, hplain.notSingleDot, hplain.notDoubleDot, Bool.or_self, Bool.and_false,
        Bool.false_eq_true, if_false]
      rw [ih fun s hmem => h s (List.mem_cons_of_mem segment hmem), List.append_assoc]
      rfl

theorem splitOnP_intercalate {segments : List (List Char)} (hne : segments ≠ [])
    (h : ∀ s ∈ segments, ∀ c ∈ s, isSlash c = false) :
    (['/'].intercalate segments).splitOnP isSlash = segments := by
  induction segments with
  | nil => exact absurd rfl hne
  | cons segment rest ih =>
      have hsegment := h segment List.mem_cons_self
      cases rest with
      | nil => simpa [List.intercalate] using List.splitOnP_eq_singleton hsegment
      | cons next rest =>
          have hrest := ih (List.cons_ne_nil next rest)
            fun s hmem => h s (List.mem_cons_of_mem segment hmem)
          rw [List.intercalate_cons_cons, List.append_assoc, List.singleton_append,
            List.splitOnP_append_cons_of_forall_mem hsegment '/' rfl, hrest]

/-- Plain segments come out as they are, one by one. -/
theorem parsePath_intercalate {segments : List (List Char)} (hne : segments ≠ [])
    (h : ∀ s ∈ segments, IsPlain s) :
    parsePath ('/' :: ['/'].intercalate segments) = segments := by
  have hsplit := splitOnP_intercalate hne fun s hmem c hc => ((h s hmem).chars c hc).2
  unfold parsePath
  simp only [List.head?_cons, Option.any_some, show isSlash '/' = true from rfl, if_true,
    List.tail_cons]
  rw [hsplit, resolveSegments_plain h, List.nil_append]

theorem mem_intercalate {segments : List (List Char)} {c : Char}
    (h : c ∈ ['/'].intercalate segments) : c = '/' ∨ ∃ s ∈ segments, c ∈ s := by
  induction segments with
  | nil => cases h
  | cons segment rest ih =>
      have hfirst : ∀ {c}, c ∈ segment → ∃ s ∈ segment :: rest, c ∈ s :=
        fun hmem => ⟨segment, List.mem_cons_self, hmem⟩
      by_cases hnil : rest = []
      · rw [hnil, List.intercalate_singleton] at h
        exact .inr (hfirst h)
      · rw [List.intercalate_cons_of_ne_nil hnil] at h
        simp only [List.mem_append, List.mem_singleton] at h
        rcases h with (h | h) | h
        · exact .inr (hfirst h)
        · exact .inl h
        · rcases ih h with h | ⟨s, hs, hmem⟩
          · exact .inl h
          · exact .inr ⟨s, List.mem_cons_of_mem segment hs, hmem⟩

theorem intercalate_concat {segments : List (List Char)} (hne : segments ≠ [])
    (last : List Char) :
    ['/'].intercalate (segments ++ [last]) = ['/'].intercalate segments ++ '/' :: last := by
  induction segments with
  | nil => exact absurd rfl hne
  | cons segment rest ih =>
      by_cases hnil : rest = []
      · simp [hnil, List.intercalate]
      · rw [List.cons_append, List.intercalate_cons_of_ne_nil (by simp),
          List.intercalate_cons_of_ne_nil hnil, ih hnil]
        simp

theorem setPathname_path {segments : List (List Char)} (hne : segments ≠ [])
    (h : ∀ s ∈ segments, IsPlain s) (url : Url) :
    (url.setPathname ('/' :: ['/'].intercalate segments)).path = segments := by
  have htab : ∀ c, isTabOrNewline c = true → inPathSet c = true ∧ c ≠ '/' := by
    intro c hc
    simp only [isTabOrNewline, Bool.or_eq_true, decide_eq_true_eq] at hc
    rcases hc with (rfl | rfl) | rfl <;> decide
  have hfilter : ('/' :: ['/'].intercalate segments).filter (fun c => !isTabOrNewline c) =
      '/' :: ['/'].intercalate segments := by
    refine List.filter_eq_self.mpr fun c hmem => ?_
    by_contra hc
    obtain ⟨hset, hslash⟩ := htab c (by simpa using hc)
    rcases List.mem_cons.mp hmem with hmem | hmem
    · exact hslash hmem
    · rcases mem_intercalate hmem with hmem | ⟨s, hs, hmem⟩
      · exact hslash hmem
      · rw [((h s hs).chars c hmem).1] at hset
        exact Bool.false_ne_true hset
  rw [setPathname, hfilter, parsePath_intercalate hne h]

/-! ### The authority -/

theorem mem_splitPort {inside : Bool} {text : List Char} {c : Char} (h : c ∈ text) :
    c = ':' ∨ c ∈ (splitPort inside text).1 ∨ c ∈ (splitPort inside text).2.getD [] := by
  induction text generalizing inside with
  | nil => cases h
  | cons d rest ih =>
      rw [splitPort]
      split
      · rename_i hcolon
        rcases List.mem_cons.mp h with rfl | h
        · simp only [Bool.and_eq_true, decide_eq_true_eq] at hcolon
          exact .inl hcolon.1
        · exact .inr (.inr h)
      · rcases List.mem_cons.mp h with rfl | h
        · exact .inr (.inl List.mem_cons_self)
        · rcases @ih (d = '[' || (inside && d ≠ ']')) h with h | h | h
          · exact .inl h
          · exact .inr (.inl (List.mem_cons_of_mem d h))
          · exact .inr (.inr h)

theorem mem_of_mem_splitPort {inside : Bool} {text : List Char} {c : Char}
    (h : c ∈ (splitPort inside text).1) : c ∈ text := by
  induction text generalizing inside with
  | nil => cases h
  | cons d rest ih =>
      rw [splitPort] at h
      split at h
      · cases h
      · rcases List.mem_cons.mp h with rfl | h
        · exact List.mem_cons_self
        · exact List.mem_cons_of_mem d (ih h)

theorem percent_of_mem_utf8EncodeChar {c : Char} (h : 0x25 ∈ String.utf8EncodeChar c) :
    c = '%' := by
  have hval : c.val.toNat = c.toNat := rfl
  have hbyte : ∀ n, n < 256 → (0x25 : UInt8) = UInt8.ofNat n → n = 0x25 := fun n hn heq => by
    have hnat := congrArg UInt8.toNat heq
    rw [UInt8.toNat_ofNat', Nat.mod_eq_of_lt hn] at hnat
    exact hnat.symm
  unfold String.utf8EncodeChar at h
  rw [hval] at h
  dsimp only at h
  refine Char.toNat_inj.mp ?_
  split at h
  · exact hbyte _ (by omega) (List.mem_singleton.mp h)
  split at h
  · simp only [List.mem_cons, List.not_mem_nil, or_false] at h
    rcases h with h | h
    · exact absurd (hbyte _ (by omega) h) (by omega)
    · exact absurd (hbyte _ (by omega) h) (by omega)
  split at h
  · simp only [List.mem_cons, List.not_mem_nil, or_false] at h
    rcases h with h | h | h
    · exact absurd (hbyte _ (by omega) h) (by omega)
    · exact absurd (hbyte _ (by omega) h) (by omega)
    · exact absurd (hbyte _ (by omega) h) (by omega)
  · simp only [List.mem_cons, List.not_mem_nil, or_false] at h
    rcases h with h | h | h | h
    · exact absurd (hbyte _ (by omega) h) (by omega)
    · exact absurd (hbyte _ (by omega) h) (by omega)
    · exact absurd (hbyte _ (by omega) h) (by omega)
    · exact absurd (hbyte _ (by omega) h) (by omega)

theorem percentDecode_eq_self {bytes : List UInt8} (h : 0x25 ∉ bytes) :
    percentDecode bytes = bytes := by
  induction bytes using percentDecode.induct with
  | case1 b high low rest decoded hdecoded ih =>
      have hb : b ≠ 0x25 := fun heq => h (heq ▸ List.mem_cons_self)
      rw [escapedByte, if_neg hb] at hdecoded
      cases hdecoded
  | case2 b high low rest hnone ih =>
      rw [percentDecode, hnone]
      exact congrArg (b :: ·) (ih fun hmem => h (List.mem_cons_of_mem b hmem))
  | case3 bytes hshort => rw [percentDecode]; exact hshort

theorem decodeHost_eq_self {text : List Char} (h : '%' ∉ text) : decodeHost text = text := by
  have hbytes : (0x25 : UInt8) ∉ text.flatMap String.utf8EncodeChar := by
    intro hmem
    obtain ⟨c, hc, hbyte⟩ := List.mem_flatMap.mp hmem
    exact h (percent_of_mem_utf8EncodeChar hbyte ▸ hc)
  rw [decodeHost, percentDecode_eq_self hbytes, decodeUtf8_encode]

/-- A code point that neither ends nor divides an authority, and is not dropped before. -/
def isPlainInAuthority (c : Char) : Bool := !isControlOrSpace c && !endsAuthority c && c ≠ '@'

theorem clean_eq_self {text : List Char} (h : ∀ c ∈ text, isControlOrSpace c = false) :
    clean text = text := by
  have hdrop : ∀ t : List Char, (∀ c ∈ t, isControlOrSpace c = false) →
      t.dropWhile isControlOrSpace = t := by
    intro t ht
    cases t with
    | nil => rfl
    | cons c t => rw [List.dropWhile_cons, ht c List.mem_cons_self]; rfl
  unfold clean
  dsimp only
  rw [hdrop text h, hdrop text.reverse fun c hmem => h c (List.mem_reverse.mp hmem),
    List.reverse_reverse]
  refine List.filter_eq_self.mpr fun c hmem => ?_
  have hc := h c hmem
  simp only [isControlOrSpace, decide_eq_false_iff_not] at hc
  have htab : ('\t'.toNat, '\n'.toNat, '\r'.toNat) = (9, 10, 13) := rfl
  simp only [Prod.mk.injEq] at htab
  simp only [isTabOrNewline, Bool.not_eq_true', Bool.or_eq_false_iff, decide_eq_false_iff_not]
  refine ⟨⟨?_, ?_⟩, ?_⟩ <;> rintro rfl <;> omega

theorem splitCredentials_eq_none {text : List Char} (h : '@' ∉ text) :
    splitCredentials text = none := by
  have hall : ∀ c ∈ text.reverse, decide (c ≠ '@') = true := by
    intro c hmem
    refine decide_eq_true fun heq => h ?_
    rw [← heq]
    exact List.mem_reverse.mp hmem
  have hdrop : text.reverse.dropWhile (fun c => decide (c ≠ '@')) = [] := by
    rw [← List.append_nil text.reverse, List.dropWhile_append_of_pos hall]
    rfl
  rw [splitCredentials, hdrop]

/-- A text of such code points is the host with its port as a whole, and nothing else. -/
theorem parse_plain {hosts : HostParser} {text : List Char} {url : Url}
    (h : ∀ c ∈ text, isPlainInAuthority c = true)
    (hparse : parse hosts ("https://".toList ++ text) = some url) :
    parseHost hosts (splitPort false text).1 = some url.host ∧
      parsePort 443 ((splitPort false text).2.getD []) = some url.port ∧
      url.username = [] ∧ url.password = [] ∧ url.query = none ∧ url.fragment = none := by
  have hplain : ∀ c ∈ text, isControlOrSpace c = false ∧ endsAuthority c = false ∧ c ≠ '@' := by
    intro c hmem
    simpa only [isPlainInAuthority, Bool.and_eq_true, Bool.not_eq_true', decide_eq_true_eq,
      and_assoc] using h c hmem
  have hscheme : "https://".toList.all (fun c => !isControlOrSpace c) = true := by decide
  have hclean : clean ("https://".toList ++ text) = "https://".toList ++ text := by
    refine clean_eq_self fun c hmem => ?_
    rcases List.mem_append.mp hmem with hmem | hmem
    · simpa using List.all_eq_true.mp hscheme c hmem
    · exact (hplain c hmem).1
  have hslashes : ("//".toList ++ text).dropWhile isSlash = text := by
    rw [List.dropWhile_append_of_pos (List.all_eq_true.mp (by decide))]
    cases text with
    | nil => rfl
    | cons c rest =>
        have hc := (hplain c List.mem_cons_self).2.1
        simp only [endsAuthority, Bool.or_eq_false_iff] at hc
        rw [List.dropWhile_cons, hc.1.1]
        rfl
  have hkeep : ∀ c ∈ text, (!endsAuthority c) = true := fun c hmem => by
    rw [(hplain c hmem).2.1]
    rfl
  have htake : text.takeWhile (fun c => !endsAuthority c) = text := by
    conv_lhs => rw [← List.append_nil text, List.takeWhile_append_of_pos hkeep]
    simp
  have hrest : text.dropWhile (fun c => !endsAuthority c) = [] := by
    conv_lhs => rw [← List.append_nil text, List.dropWhile_append_of_pos hkeep]
    rfl
  have hcredentials : splitCredentials text = none :=
    splitCredentials_eq_none fun hmem => (hplain _ hmem).2.2 rfl
  have hscheme : "https:".toList <+: "https://".toList ++ text := ⟨"//".toList ++ text, rfl⟩
  have hdrop : ("https://".toList ++ text).drop 6 = "//".toList ++ text := rfl
  unfold parse at hparse
  dsimp only at hparse
  rw [hclean, if_pos hscheme, hdrop, parseSpecial, hslashes] at hparse
  dsimp only at hparse
  rw [htake, hrest, hcredentials] at hparse
  obtain ⟨host, hhost, hparse⟩ := Option.bind_eq_some_iff.mp hparse
  obtain ⟨port, hport, hparse⟩ := Option.bind_eq_some_iff.mp hparse
  obtain rfl := Option.some.inj hparse
  exact ⟨hhost, hport, rfl, rfl, rfl, rfl⟩

end Url

end VicoopBridge.Library
