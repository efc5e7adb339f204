import Mathlib.Data.List.Forall2
import VicoopBridge.Model.DidWeb

/-! # The URL of a did:web document

The document is fetched from the host that the DID names, exactly if the decoded name has no
delimiter of URLs in it. -/

namespace VicoopBridge

namespace DidWeb

open Library Url UriComponent

/-- The path names the segments one by one, and then the document. -/
def PathNames (segments : List JsText) (path : List (List Char)) : Prop :=
  if segments = [] then path = [".well-known".toList, "did.json".toList]
  else ∃ names, path = names ++ ["did.json".toList] ∧ List.Forall₂ (fun segment name =>
    IsPlain name ∧ UriComponent.decodeURIComponent (units name) = some segment) segments names

/-- The URL has the decoded first segment as its host and port, as the standard reads them, nothing
beside them, and the path of the other segments. -/
structure OnNamedHost (hosts : HostParser) (first : JsText) (others : List JsText) (url : Url) :
    Prop where
  scheme : url.scheme = "https".toList
  host : hosts.parse (splitPort false (Utf16.toScalars first)).1 = some url.host
  port : parsePort 443 ((splitPort false (Utf16.toScalars first)).2.getD []) = some url.port
  userinfo : url.username = [] ∧ url.password = []
  bare : url.query = none ∧ url.fragment = none
  path : PathNames others url.path

/-- A code point of the first segment that a URL reads as something else than a part of its host and
port. -/
def isUrlDelimiter (c : Char) : Bool :=
  c.toNat ≤ 0x20 || c ∈ ['/', '\\', '?', '#', '@', '%']

theorem didWebToHttpsUrl_ok {hosts : HostParser} {did : JsText} {url : Url} {first : JsText}
    {others : List JsText} (hsegments : didSegments did = .ok (first :: others))
    (h : didWebToHttpsUrl hosts did = .ok url) :
    ∃ base pathname, Url.parse hosts ("https://".toList ++ Utf16.toScalars first) = some base ∧
      base.username = [] ∧ base.password = [] ∧ base.scheme = "https".toList ∧
      didPathname others = .ok pathname ∧ url = base.setPathname pathname := by
  unfold didWebToHttpsUrl at h
  rw [hsegments] at h
  dsimp only [bind, Except.bind, List.headD_cons] at h
  split at h
  · contradiction
  rename_i base hparse
  split at h
  · contradiction
  rename_i hbase
  simp only [Bool.or_eq_true, decide_eq_true_eq, not_or, not_not] at hbase
  cases hpathname : didPathname others with
  | error error =>
      change didPathname others >>= _ = _ at h
      rw [hpathname] at h
      contradiction
  | ok pathname =>
      change didPathname others >>= _ = _ at h
      rw [hpathname] at h
      exact ⟨base, pathname, hparse, hbase.1.1, hbase.1.2, hbase.2, rfl,
        (Except.ok.inj h).symm⟩

/-- Each element has its own result, when none of them throws. -/
theorem forall₂_of_mapM_ok {α β ε : Type} {f : α → Except ε β} {xs : List α} {ys : List β}
    (h : xs.mapM f = .ok ys) : List.Forall₂ (fun x y => f x = .ok y) xs ys := by
  induction xs generalizing ys with
  | nil =>
      obtain rfl := Except.ok.inj h
      exact .nil
  | cons x xs ih =>
      rw [List.mapM_cons] at h
      cases hx : f x with
      | error error =>
          rw [hx] at h
          contradiction
      | ok y =>
          cases hxs : xs.mapM f with
          | error error =>
              rw [hx, hxs] at h
              contradiction
          | ok rest =>
              rw [hx, hxs] at h
              obtain rfl := Except.ok.inj h
              exact .cons hx (ih hxs)

theorem didSegments_ok {did : JsText} {segments : List JsText}
    (h : didSegments did = .ok segments) :
    segments ≠ [] ∧ ∀ segment ∈ segments, isInvalidSegment segment = false := by
  unfold didSegments at h
  split at h
  · contradiction
  dsimp only at h
  split at h
  · contradiction
  cases hdecode : ((did.drop methodPrefix.length).splitOn FederatedTuple.colon).mapM
      decodeSegment with
  | error error =>
      rw [hdecode] at h
      contradiction
  | ok decoded =>
      rw [hdecode] at h
      change (if decoded.any isInvalidSegment then _ else _) = _ at h
      split at h
      · contradiction
      · rename_i hvalid
        obtain rfl := Except.ok.inj h
        rw [List.any_eq_true] at hvalid
        push Not at hvalid
        refine ⟨?_, fun segment hmem => (Bool.not_eq_true _).mp (hvalid segment hmem)⟩
        rintro rfl
        exact List.splitOn_ne_nil _ _ (List.forall₂_nil_right_iff.mp (forall₂_of_mapM_ok hdecode))

/-! ## The path -/

theorem encodeSegment_ok {segment : JsText} {name : List Char}
    (h : encodeSegment segment = .ok name) :
    UriComponent.encodeURIComponent segment = some name := by
  unfold encodeSegment at h
  split at h
  · rename_i hname
    rw [hname, Except.ok.inj h]
  · contradiction

theorem plain_of_unreserved {c : Char} (h : UriComponent.isUnreserved c = true ∨ c = '%') :
    inPathSet c = false ∧ isSlash c = false := by
  have hlt : c.toNat < 128 := by
    rcases h with h | rfl
    · exact isUnreserved_toNat_lt h
    · decide
  have hall : ∀ n : Fin 128,
      UriComponent.isUnreserved (Char.ofNat n) = true ∨ Char.ofNat n = '%' →
      inPathSet (Char.ofNat n) = false ∧ isSlash (Char.ofNat n) = false := by
    decide +kernel
  simpa only [Char.ofNat_toNat] using hall ⟨c.toNat, hlt⟩ (by simpa only [Char.ofNat_toNat])

/-- However a dot segment is escaped, it is decoded to dots. -/
theorem isInvalidSegment_of_dots {name : List Char} {segment : JsText}
    (h : isSingleDot name = true ∨ isDoubleDot name = true)
    (hdecode : UriComponent.decodeURIComponent (units name) = some segment) :
    isInvalidSegment segment = true := by
  have hsingle : ∀ name ∈ [".".toList, "%2e".toList, "%2E".toList],
      UriComponent.decodeURIComponent (units name) = some (JsText.ofAscii ".") := by decide
  have hdouble : ∀ name ∈ ["..".toList, ".%2e".toList, ".%2E".toList, "%2e.".toList, "%2E.".toList,
      "%2e%2e".toList, "%2e%2E".toList, "%2E%2e".toList, "%2E%2E".toList],
      UriComponent.decodeURIComponent (units name) = some (JsText.ofAscii "..") := by
    decide +kernel
  rcases h with h | h
  · rw [hsingle name (of_decide_eq_true h)] at hdecode
    obtain rfl := Option.some.inj hdecode
    decide
  · rw [hdouble name (of_decide_eq_true h)] at hdecode
    obtain rfl := Option.some.inj hdecode
    decide

theorem isPlain_encode {segment : JsText} {name : List Char}
    (h : UriComponent.encodeURIComponent segment = some name)
    (hvalid : isInvalidSegment segment = false) :
    IsPlain name ∧ UriComponent.decodeURIComponent (units name) = some segment := by
  have hdecode := decode_encode h
  have hdots : ¬ (isSingleDot name = true ∨ isDoubleDot name = true) := by
    intro hdots
    rw [isInvalidSegment_of_dots hdots hdecode] at hvalid
    contradiction
  push Not at hdots
  have hchars : ∀ c ∈ name, inPathSet c = false ∧ isSlash c = false := fun c hmem =>
    plain_of_unreserved (isUnreserved_or_percent h hmem)
  exact ⟨⟨hchars, (Bool.not_eq_true _).mp hdots.1, (Bool.not_eq_true _).mp hdots.2⟩, hdecode⟩

theorem isPlain_document : IsPlain "did.json".toList := by
  have hchars : "did.json".toList.all (fun c => !inPathSet c && !isSlash c) = true := by decide
  refine ⟨fun c hmem => ?_, by decide, by decide⟩
  simpa using List.all_eq_true.mp hchars c hmem

theorem pathNames_setPathname {segments : List JsText} {pathname : List Char} (base : Url)
    (hvalid : ∀ segment ∈ segments, isInvalidSegment segment = false)
    (h : didPathname segments = .ok pathname) :
    PathNames segments (base.setPathname pathname).path := by
  unfold didPathname at h
  unfold PathNames
  split at h
  · rename_i hnil
    obtain rfl := Except.ok.inj h
    rw [if_pos hnil]
    change Url.parsePath ("/.well-known/did.json".toList.filter fun c => !isTabOrNewline c) = _
    decide
  rename_i hne
  rw [if_neg hne]
  cases hnames : segments.mapM encodeSegment with
  | error error =>
      rw [hnames] at h
      contradiction
  | ok names =>
      rw [hnames] at h
      obtain rfl := Except.ok.inj h
      have hencoded := (List.forall₂_and_left _ _).mpr ⟨hvalid, forall₂_of_mapM_ok hnames⟩
      have hplain : List.Forall₂ (fun segment name =>
          IsPlain name ∧ UriComponent.decodeURIComponent (units name) = some segment) segments names :=
        hencoded.imp fun segment name h => isPlain_encode (encodeSegment_ok h.2) h.1
      have hnamesNil : names ≠ [] := by
        rintro rfl
        exact hne (List.forall₂_nil_right_iff.mp hplain)
      have hall : ∀ name ∈ names ++ ["did.json".toList], IsPlain name := by
        intro name hmem
        rcases List.mem_append.mp hmem with hmem | hmem
        · exact ((List.forall₂_and_left _ _).mp hplain.flip).1 name hmem
        · rw [List.mem_singleton.mp hmem]
          exact isPlain_document
      refine ⟨names, ?_, hplain⟩
      have hjoin : '/' :: ['/'].intercalate names ++ "/did.json".toList =
          '/' :: ['/'].intercalate (names ++ ["did.json".toList]) := by
        rw [intercalate_concat hnamesNil]
        rfl
      rw [hjoin, setPathname_path (by simp) hall]

/-! ## The host -/

theorem forbidden_of_isUrlDelimiter {c : Char} (h : isUrlDelimiter c = true) :
    isForbiddenInHost c = true := by
  simp only [isUrlDelimiter, Bool.or_eq_true, decide_eq_true_eq] at h
  rcases h with h | h
  · simp [isForbiddenInHost, h]
  · have hall : ∀ c ∈ ['/', '\\', '?', '#', '@', '%'], isForbiddenInHost c = true :=
      List.all_eq_true.mp (by decide)
    exact hall c h

/-- A text that is taken for a host with its port as a whole has no delimiter in it. -/
theorem not_isUrlDelimiter_of_host {hosts : HostParser} {text host : List Char} {port : Option ℕ}
    (hhost : hosts.parse (splitPort false text).1 = some host)
    (hport : parsePort 443 ((splitPort false text).2.getD []) = some port) {c : Char}
    (hmem : c ∈ text) : isUrlDelimiter c = false := by
  refine (Bool.not_eq_true _).mp fun hdelimiter => ?_
  have hforbidden := forbidden_of_isUrlDelimiter hdelimiter
  rcases mem_splitPort hmem with rfl | hname | hdigits
  · revert hdelimiter
    decide
  · rw [hosts.refuses _ c hname hforbidden] at hhost
    contradiction
  · unfold parsePort at hport
    split at hport
    · contradiction
    · rename_i hall
      simp only [Bool.not_eq_true', Bool.not_eq_false, List.all_eq_true] at hall
      have hdigit := hall c hdigits
      have hrange : 48 ≤ c.toNat ∧ c.toNat ≤ 57 := by
        simp only [Char.isDigit, Bool.and_eq_true, decide_eq_true_eq, ge_iff_le,
          UInt32.le_iff_toNat_le] at hdigit
        exact hdigit
      have hall : ∀ n : Fin 58, 48 ≤ n.val → isUrlDelimiter (Char.ofNat n) = false := by decide
      have hnot := hall ⟨c.toNat, by omega⟩ hrange.1
      rw [Char.ofNat_toNat, hdelimiter] at hnot
      contradiction

theorem isPlainInAuthority_of_not_delimiter {c : Char} (h : isUrlDelimiter c = false) :
    isPlainInAuthority c = true ∧ c ≠ '%' := by
  simp only [isUrlDelimiter, Bool.or_eq_false_iff, decide_eq_false_iff_not, List.mem_cons,
    List.not_mem_nil, or_false, not_or] at h
  obtain ⟨hcontrol, hslash, hbackslash, hquery, hfragment, hat, hpercent⟩ := h
  refine ⟨?_, hpercent⟩
  simp [isPlainInAuthority, isControlOrSpace, endsAuthority, isSlash, hcontrol, hslash, hbackslash,
    hquery, hfragment, hat]

theorem exists_segments {hosts : HostParser} {did : JsText} {url : Url}
    (h : didWebToHttpsUrl hosts did = .ok url) :
    ∃ first others, didSegments did = .ok (first :: others) := by
  cases hsegments : didSegments did with
  | error error =>
      rw [didWebToHttpsUrl, hsegments] at h
      contradiction
  | ok segments =>
      cases segments with
      | cons first others => exact ⟨first, others, rfl⟩
      | nil => exact absurd rfl (didSegments_ok hsegments).1

/-- The URL stays on the named host exactly if the decoded first segment has no delimiter of URLs, no
`%` and no space or control in it. -/
theorem onNamedHost_iff (hosts : HostParser) (did : JsText) (url : Url)
    (h : didWebToHttpsUrl hosts did = .ok url) :
    ∃ first others, didSegments did = .ok (first :: others) ∧
      (OnNamedHost hosts first others url ↔
        ∀ c ∈ Utf16.toScalars first, isUrlDelimiter c = false) := by
  obtain ⟨first, others, hsegments⟩ := exists_segments h
  refine ⟨first, others, hsegments, ?_⟩
  constructor
  · intro hnamed c hmem
    exact not_isUrlDelimiter_of_host hnamed.host hnamed.port hmem
  · intro hplain
    obtain ⟨base, pathname, hparse, -, -, hscheme, hpathname, rfl⟩ := didWebToHttpsUrl_ok hsegments h
    obtain ⟨hhost, hport, husername, hpassword, hquery, hfragment⟩ := parse_plain
      (fun c hmem => (isPlainInAuthority_of_not_delimiter (hplain c hmem)).1) hparse
    have hpercent : '%' ∉ (splitPort false (Utf16.toScalars first)).1 := fun hmem =>
      (isPlainInAuthority_of_not_delimiter (hplain _ (mem_of_mem_splitPort hmem))).2 rfl
    have hname : hosts.parse (splitPort false (Utf16.toScalars first)).1 = some base.host := by
      unfold parseHost at hhost
      rw [decodeHost_eq_self hpercent, ite_self] at hhost
      split at hhost
      · contradiction
      · exact hhost
    have hvalid : ∀ segment ∈ others, isInvalidSegment segment = false := fun segment hmem =>
      (didSegments_ok hsegments).2 segment (List.mem_cons_of_mem first hmem)
    exact {
      scheme := hscheme
      host := hname
      port := hport
      userinfo := ⟨husername, hpassword⟩
      bare := ⟨hquery, hfragment⟩
      path := pathNames_setPathname base hvalid hpathname }

/-- The host parser on one domain. -/
def sampleHosts : HostParser where
  parse text := if text = "issuer.example".toList then some text else none
  refuses text c hmem hforbidden := by
    have hplain : "issuer.example".toList.all (fun c => !isForbiddenInHost c) = true := by decide
    have hall : ∀ c ∈ "issuer.example".toList, isForbiddenInHost c = false := by
      simpa using List.all_eq_true.mp hplain
    refine if_neg fun heq => ?_
    rw [hall c (heq ▸ hmem)] at hforbidden
    contradiction

def sampleUrl (port : Option ℕ) (path : List String) (query : Option String) : Url where
  scheme := "https".toList
  username := []
  password := []
  host := "issuer.example".toList
  port := port
  path := path.map String.toList
  query := query.map String.toList
  fragment := none

theorem onNamedHost_iff_sample :
    ∃ first others, didSegments (JsText.ofAscii "did:web:issuer.example%3A8443:a%2Fb") =
        .ok (first :: others) ∧
      (OnNamedHost sampleHosts first others (sampleUrl (some 8443) ["a%2Fb", "did.json"] none) ↔
        ∀ c ∈ Utf16.toScalars first, isUrlDelimiter c = false) :=
  onNamedHost_iff sampleHosts (JsText.ofAscii "did:web:issuer.example%3A8443:a%2Fb")
    (sampleUrl (some 8443) ["a%2Fb", "did.json"] none) (by decide +kernel)

/-- An escaped question mark makes a query of the rest of the first segment. -/
theorem onNamedHost_fails :
    ¬ ∀ (hosts : HostParser) (did : JsText) (url : Url), didWebToHttpsUrl hosts did = .ok url →
      ∃ first others, didSegments did = .ok (first :: others) ∧
        OnNamedHost hosts first others url := by
  intro h
  have hok : didWebToHttpsUrl sampleHosts (JsText.ofAscii "did:web:issuer.example%3Fx=1") =
      .ok (sampleUrl none [".well-known", "did.json"] (some "x=1")) := by decide +kernel
  obtain ⟨first, others, -, hnamed⟩ := h _ _ _ hok
  exact absurd hnamed.bare.1 (by decide)

end DidWeb

end VicoopBridge
