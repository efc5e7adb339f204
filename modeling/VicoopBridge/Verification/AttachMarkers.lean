import Mathlib.Data.List.TakeWhile
import VicoopBridge.Model.AttachMarkers

/-! # The markers of a path

A marker begins with its opening, ends at its only bracket, and has white space around the path
alone. So no two markers of one path overlap. -/

namespace VicoopBridge.AttachMarkers

open Library

/-! ## White space around a text -/

/-- The text is white space. -/
def Blank (s : JsText) : Prop := ∀ u ∈ s, JsText.isWhitespace u = true

/-- The text begins and ends with a unit that is no white space. -/
structure Trimmed (s : JsText) : Prop where
  first : ∃ u rest, s = u :: rest ∧ JsText.isWhitespace u = false
  last : ∃ rest u, s = rest ++ [u] ∧ JsText.isWhitespace u = false

theorem takeWhile_blank {space : JsText} (hspace : Blank space) {u : UInt16}
    (hu : JsText.isWhitespace u = false) (rest : JsText) :
    (space ++ u :: rest).takeWhile JsText.isWhitespace = space := by
  rw [List.takeWhile_append_of_pos hspace, List.takeWhile_cons_of_neg (by simp [hu]),
    List.append_nil]

theorem dropWhile_blank {space : JsText} (hspace : Blank space) {u : UInt16}
    (hu : JsText.isWhitespace u = false) (rest : JsText) :
    (space ++ u :: rest).dropWhile JsText.isWhitespace = u :: rest := by
  rw [List.dropWhile_append_of_pos hspace, List.dropWhile_cons_of_neg (by simp [hu])]

theorem blank_takeWhile (s : JsText) : Blank (s.takeWhile JsText.isWhitespace) := fun _ hu =>
  List.mem_takeWhile_imp hu

theorem isWhitespace_of_dropWhile {s rest : JsText} {u : UInt16}
    (h : s.dropWhile JsText.isWhitespace = u :: rest) : JsText.isWhitespace u = false := by
  have hne : s.dropWhile JsText.isWhitespace ≠ [] := by
    rw [h]
    exact List.cons_ne_nil u rest
  simpa [h] using List.head_dropWhile_not JsText.isWhitespace hne

theorem trim_eq_self {s : JsText} (h : Trimmed s) : JsText.trim s = s := by
  obtain ⟨u, rest, hfirst, hu⟩ := h.first
  obtain ⟨front, v, hlast, hv⟩ := h.last
  have hleft : s.dropWhile JsText.isWhitespace = s := by
    rw [hfirst, List.dropWhile_cons_of_neg (by simp [hu])]
  have hright : s.reverse.dropWhile JsText.isWhitespace = s.reverse := by
    rw [hlast, List.reverse_append, List.reverse_singleton, List.singleton_append,
      List.dropWhile_cons_of_neg (by simp [hv])]
  rw [JsText.trim, hleft, hright, List.reverse_reverse]

theorem trim_blank {s : JsText} (h : Blank s) : JsText.trim s = [] := by
  have hnil : s.dropWhile JsText.isWhitespace = [] := List.dropWhile_eq_nil_iff.mpr h
  rw [JsText.trim, hnil]
  rfl

/-- What `trim` takes away is white space. -/
theorem exists_trim (s : JsText) :
    ∃ before after, Blank before ∧ Blank after ∧ s = before ++ (JsText.trim s ++ after) := by
  let inner := s.dropWhile JsText.isWhitespace
  refine ⟨s.takeWhile JsText.isWhitespace,
    (inner.reverse.takeWhile JsText.isWhitespace).reverse, blank_takeWhile s, ?_, ?_⟩
  · intro u hu
    exact blank_takeWhile _ u (List.mem_reverse.mp hu)
  · have hinner : inner =
        JsText.trim s ++ (inner.reverse.takeWhile JsText.isWhitespace).reverse := by
      rw [JsText.trim, ← List.reverse_append, List.takeWhile_append_dropWhile, List.reverse_reverse]
    rw [← hinner]
    exact List.takeWhile_append_dropWhile.symm

theorem trimmed_of_dropWhile {s : JsText} {u : UInt16} {rest : JsText} (hs : s = u :: rest)
    (hu : JsText.isWhitespace u = false) :
    Trimmed (s.reverse.dropWhile JsText.isWhitespace).reverse := by
  have hfront : (s.reverse.dropWhile JsText.isWhitespace).reverse =
      u :: (rest.reverse.dropWhile JsText.isWhitespace).reverse := by
    rw [hs, List.reverse_cons, List.dropWhile_append]
    split
    · next hnil =>
        rw [List.isEmpty_iff.mp hnil, List.dropWhile_cons_of_neg (by simp [hu])]
        rfl
    · rw [List.reverse_append, List.reverse_singleton, List.singleton_append]
  refine ⟨⟨u, _, hfront, hu⟩, ?_⟩
  cases hend : s.reverse.dropWhile JsText.isWhitespace with
  | nil => rw [hend] at hfront; cases hfront
  | cons v front =>
      exact ⟨front.reverse, v, by rw [List.reverse_cons], isWhitespace_of_dropWhile hend⟩

/-- Two texts that end with something else than white space, and white space after them. -/
theorem append_blank_inj {s t before after : JsText} {u v : UInt16}
    (hu : JsText.isWhitespace u = false) (hv : JsText.isWhitespace v = false)
    (hbefore : Blank before) (hafter : Blank after)
    (h : s ++ u :: before = t ++ v :: after) : s ++ [u] = t ++ [v] ∧ before = after := by
  have hreverse := congrArg List.reverse h
  simp only [List.reverse_append, List.reverse_cons, List.append_assoc, List.singleton_append]
    at hreverse
  have hblank : ∀ {w : JsText}, Blank w → Blank w.reverse := fun hw x hx =>
    hw x (List.mem_reverse.mp hx)
  have hspace := congrArg (List.takeWhile JsText.isWhitespace) hreverse
  rw [takeWhile_blank (hblank hbefore) hu, takeWhile_blank (hblank hafter) hv] at hspace
  have hrest := congrArg (List.dropWhile JsText.isWhitespace) hreverse
  rw [dropWhile_blank (hblank hbefore) hu, dropWhile_blank (hblank hafter) hv] at hrest
  refine ⟨?_, List.reverse_injective hspace⟩
  apply List.reverse_injective
  simpa using hrest

/-! ## What matches -/

/-- The parts of a match: white space, and what stands between it and the bracket. -/
structure IsParts (space body : JsText) : Prop where
  blank : Blank space
  spaced : space ≠ []
  first : ∀ u rest, body = u :: rest → JsText.isWhitespace u = false
  inside : closing ∉ body

def marker (space body : JsText) : JsText := opening ++ (space ++ (body ++ [closing]))

def groupOf (space body : JsText) : Option JsText :=
  if body = [] then (space.tail.reverse.find? (· ≠ newline)).map ([·])
  else
    let group := (body.reverse.dropWhile JsText.isWhitespace).reverse
    if newline ∈ group then none else some group

theorem closing_not_blank : JsText.isWhitespace closing = false := by decide

theorem takeWhile_closing {body : JsText} (h : closing ∉ body) (rest : JsText) :
    (body ++ closing :: rest).takeWhile (· ≠ closing) = body := by
  have hall : ∀ u ∈ body, decide (u ≠ closing) = true := by
    intro u hu
    exact decide_eq_true fun heq => h (heq ▸ hu)
  rw [List.takeWhile_append_of_pos hall, List.takeWhile_cons_of_neg (by simp), List.append_nil]

/-- Where the text begins with the parts of a match, what follows does not matter. -/
theorem matchMarker_parts {space body : JsText} (h : IsParts space body) (rest : JsText) :
    matchMarker (opening ++ (space ++ (body ++ closing :: rest))) =
      (groupOf space body).map (·, marker space body) := by
  obtain ⟨u, tail, htail, hu⟩ : ∃ u tail, body ++ closing :: rest = u :: tail ∧
      JsText.isWhitespace u = false := by
    cases body with
    | nil => exact ⟨closing, rest, rfl, closing_not_blank⟩
    | cons u body => exact ⟨u, body ++ closing :: rest, rfl, h.first u body rfl⟩
  have hspace : (space ++ (body ++ closing :: rest)).takeWhile JsText.isWhitespace = space := by
    rw [htail, takeWhile_blank h.blank hu]
  have hrest : (space ++ (body ++ closing :: rest)).dropWhile JsText.isWhitespace =
      body ++ closing :: rest := by
    rw [htail, dropWhile_blank h.blank hu]
  have hbody := takeWhile_closing h.inside rest
  have hmem : closing ∈ body ++ closing :: rest := by simp
  rw [matchMarker, if_neg (by simp), List.drop_left]
  dsimp only
  rw [hspace, hrest, hbody, if_neg (by simp [h.spaced]), groupOf]
  have hmarker : opening ++ space ++ body ++ [closing] = marker space body := by simp [marker]
  rw [hmarker]
  split
  · rw [Option.map_map]
    rfl
  · dsimp only
    split <;> rfl

theorem exists_parts {text group k : JsText} (h : matchMarker text = some (group, k)) :
    ∃ space body rest, IsParts space body ∧ groupOf space body = some group ∧
      k = marker space body ∧ text = opening ++ (space ++ (body ++ closing :: rest)) := by
  have hopening : opening <+: text := by
    by_contra hnot
    rw [matchMarker, if_pos hnot] at h
    cases h
  obtain ⟨tail, rfl⟩ := hopening
  have hmatch := h
  rw [matchMarker, if_neg (by simp), List.drop_left] at h
  dsimp only at h
  split at h
  · cases h
  · next hparts =>
      rw [Bool.or_eq_true, not_or, decide_eq_true_eq, decide_eq_true_eq, not_not] at hparts
      obtain ⟨hspaced, hclosing⟩ := hparts
      clear h
      obtain ⟨body, rest, hafter, hinside⟩ := List.eq_append_cons_of_mem hclosing
      have hfirst : ∀ u others, body = u :: others → JsText.isWhitespace u = false := by
        rintro u others rfl
        exact isWhitespace_of_dropWhile hafter
      have hisParts : IsParts (tail.takeWhile JsText.isWhitespace) body :=
        ⟨blank_takeWhile tail, hspaced, hfirst, hinside⟩
      have htail : tail = tail.takeWhile JsText.isWhitespace ++ (body ++ closing :: rest) := by
        rw [← hafter, List.takeWhile_append_dropWhile]
      rw [htail, matchMarker_parts hisParts] at hmatch
      obtain ⟨group', hgroup, heq⟩ := Option.map_eq_some_iff.mp hmatch
      cases heq
      exact ⟨_, body, rest, hisParts, hgroup, rfl, by rw [← htail]⟩

/-- A match does not depend on what follows it. -/
theorem matchMarker_self {text group k : JsText} (h : matchMarker text = some (group, k)) :
    matchMarker k = some (group, k) := by
  obtain ⟨space, body, rest, hparts, hgroup, rfl, -⟩ := exists_parts h
  exact (matchMarker_parts hparts []).trans (by rw [hgroup]; rfl)

theorem start_of_match {text group k : JsText} (h : matchMarker text = some (group, k)) :
    k <+: text := by
  obtain ⟨space, body, rest, -, -, rfl, rfl⟩ := exists_parts h
  exact ⟨rest, by simp [marker]⟩

/-- The group without white space around it: nothing, or the body without the white space at its
end. -/
theorem trim_group {space body group : JsText} (hparts : IsParts space body)
    (h : groupOf space body = some group) :
    JsText.trim group = [] ∨ newline ∉ group ∧ Trimmed group ∧
      ∃ after, Blank after ∧ body = group ++ after := by
  rw [groupOf] at h
  split at h
  · obtain ⟨u, hu, rfl⟩ := Option.map_eq_some_iff.mp h
    have hmem := List.mem_of_find?_eq_some hu
    refine .inl (trim_blank fun v hv => ?_)
    rw [List.mem_singleton.mp hv]
    exact hparts.blank u (List.mem_of_mem_tail (List.mem_reverse.mp hmem))
  · next hne =>
      dsimp only at h
      split at h
      · cases h
      · next hnewline =>
          cases h
          obtain ⟨u, rest, hbody⟩ := List.exists_cons_of_ne_nil hne
          refine .inr ⟨hnewline, trimmed_of_dropWhile hbody (hparts.first u rest hbody),
            (body.reverse.takeWhile JsText.isWhitespace).reverse, ?_, ?_⟩
          · intro v hv
            exact blank_takeWhile _ v (List.mem_reverse.mp hv)
          · rw [← List.reverse_append, List.takeWhile_append_dropWhile, List.reverse_reverse]

/-! ## The markers of one path -/

/-- The text is a marker, from its first unit to its last, and names the path. -/
def marksPath (path k : JsText) : Bool :=
  match matchMarker k with
  | some (group, matched) => decide (matched = k ∧ JsText.trim group = path)
  | none => false

theorem marksPath_iff {path k : JsText} :
    marksPath path k = true ↔
      ∃ group, matchMarker k = some (group, k) ∧ JsText.trim group = path := by
  rw [marksPath]
  split
  · next group matched heq =>
      rw [heq, decide_eq_true_eq]
      constructor
      · rintro ⟨rfl, hpath⟩
        exact ⟨group, rfl, hpath⟩
      · rintro ⟨group', heq', hpath⟩
        cases heq'
        exact ⟨rfl, hpath⟩
  · next heq =>
      rw [heq]
      simp

structure PathMarker (path k : JsText) (space after : JsText) : Prop where
  eq : k = opening ++ (space ++ (path ++ (after ++ [closing])))
  space : Blank space
  after : Blank after
  inside : closing ∉ path
  trimmed : Trimmed path

theorem exists_pathMarker {path k : JsText} (hpath : path ≠ []) (h : marksPath path k = true) :
    ∃ space after, PathMarker path k space after := by
  obtain ⟨group, hmatch, htrim⟩ := marksPath_iff.mp h
  obtain ⟨space, body, rest, hparts, hgroup, hk, -⟩ := exists_parts hmatch
  rcases trim_group hparts hgroup with hnil | ⟨-, htrimmed, after, hafter, hbody⟩
  · exact absurd (htrim.symm.trans hnil) hpath
  · rw [trim_eq_self htrimmed] at htrim
    subst htrim hbody
    refine ⟨space, after, ?_, hparts.blank, hafter, ?_, htrimmed⟩
    · rw [hk, marker, List.append_assoc]
    · exact fun hmem => hparts.inside (List.mem_append_left _ hmem)

theorem not_mem_of_blank {s : JsText} (h : Blank s) : closing ∉ s := by
  intro hmem
  have hblank := h closing hmem
  rw [closing_not_blank] at hblank
  cases hblank

/-- A marker ends at its only bracket. -/
theorem PathMarker.endMark {path k space after : JsText} (h : PathMarker path k space after) :
    ∃ body, k = body ++ [closing] ∧ closing ∉ body := by
  refine ⟨opening ++ (space ++ (path ++ after)), ?_, ?_⟩
  · rw [h.eq]
    simp only [List.append_assoc]
  · simp only [List.mem_append, not_or]
    exact ⟨by decide, not_mem_of_blank h.space, h.inside, not_mem_of_blank h.after⟩

/-- No marker is the end of another one: the white space of both is the same. -/
theorem PathMarker.eq_of_suffix {path k k' space space' after after' : JsText}
    (h : PathMarker path k space after) (h' : PathMarker path k' space' after')
    (hsuffix : k' <:+ k) : k' = k := by
  obtain ⟨front, hfront⟩ := hsuffix
  obtain ⟨inner, u, hpath, hu⟩ := h.trimmed.last
  have hopening : ∃ start v, opening = start ++ [v] ∧ JsText.isWhitespace v = false :=
    ⟨opening.dropLast, 0x3A, by decide, by decide⟩
  obtain ⟨start, v, hstart, hv⟩ := hopening
  rw [h.eq, h'.eq] at hfront
  have hbody : (front ++ (opening ++ (space' ++ inner))) ++ u :: after' =
      (opening ++ (space ++ inner)) ++ u :: after := by
    apply (List.append_left_inj [closing]).mp
    rw [hpath] at hfront
    simpa [List.append_assoc] using hfront
  obtain ⟨hnames, hafter⟩ := append_blank_inj hu hu h'.after h.after hbody
  have hspaces : (front ++ start) ++ v :: space' = start ++ v :: space := by
    apply (List.append_left_inj path).mp
    rw [hpath]
    simpa [hstart, List.append_assoc] using hnames
  obtain ⟨-, hspace⟩ := append_blank_inj hv hv h'.space h.space hspaces
  rw [h.eq, h'.eq, hspace, hafter]

theorem nonOverlapping {path : JsText} (hpath : path ≠ []) :
    Words.NonOverlapping fun k => marksPath path k = true := by
  refine .of_endMark closing ?_ ?_
  · intro k hk
    obtain ⟨space, after, hmarker⟩ := exists_pathMarker hpath hk
    exact hmarker.endMark
  · intro k k' hk hk' hsuffix
    obtain ⟨space, after, hmarker⟩ := exists_pathMarker hpath hk
    obtain ⟨space', after', hmarker'⟩ := exists_pathMarker hpath hk'
    exact hmarker.eq_of_suffix hmarker' hsuffix

/-! ## What has been parsed -/

/-- What is recorded for a path: its markers in the text, and at least one. -/
structure Recorded (text : JsText) (parsed : ParsedAttachMarkers) : Prop where
  named : ∀ p, p ∈ parsed.paths → p ≠ [] ∧ ∃ ms, parsed.markersByPath.get? p = some ms
  listed : ∀ p ms, parsed.markersByPath.get? p = some ms → p ∈ parsed.paths ∧ ms ≠ []
  marks : ∀ p ms, parsed.markersByPath.get? p = some ms →
    ∀ m ∈ ms, marksPath p m = true ∧ m <:+: text

theorem Recorded.addMatch {text : JsText} {parsed : ParsedAttachMarkers}
    (h : Recorded text parsed) {group k : JsText} (hmatch : matchMarker k = some (group, k))
    (hfound : k <:+: text) : Recorded text (addMatch parsed (group, k)) := by
  rw [AttachMarkers.addMatch]
  dsimp only
  split
  · exact h
  · next hraw =>
      have hpaths : ∀ p, p ∈ (if JsText.trim group ∈ parsed.paths then parsed.paths
          else parsed.paths ++ [JsText.trim group]) ↔ p ∈ parsed.paths ∨ p = JsText.trim group := by
        intro p
        split
        · next hmem =>
            refine ⟨.inl, ?_⟩
            rintro (hp | rfl)
            · exact hp
            · exact hmem
        · simp
      have hother : ∀ {p : JsText} {ms : List JsText}, p ≠ JsText.trim group →
          (parsed.markersByPath.set (JsText.trim group) ms).get? p =
            parsed.markersByPath.get? p :=
        fun hne => parsed.markersByPath.get?_set_of_ne _ (Ne.symm hne)
      refine ⟨fun p hp => ?_, fun p ms hget => ?_, fun p ms hget => ?_⟩
      · by_cases heq : p = JsText.trim group
        · subst heq
          exact ⟨hraw, _, InsertionMap.get?_set_self _ _ _⟩
        · have hp := ((hpaths p).mp hp).resolve_right heq
          obtain ⟨hne, ms, hget⟩ := h.named p hp
          exact ⟨hne, ms, (hother heq).trans hget⟩
      · by_cases heq : p = JsText.trim group
        · subst heq
          rw [InsertionMap.get?_set_self, Option.some.injEq] at hget
          exact ⟨(hpaths _).mpr (.inr rfl), by rw [← hget]; simp⟩
        · obtain ⟨hp, hne⟩ := h.listed p ms ((hother heq).symm.trans hget)
          exact ⟨(hpaths p).mpr (.inl hp), hne⟩
      · by_cases heq : p = JsText.trim group
        · subst heq
          rw [InsertionMap.get?_set_self, Option.some.injEq] at hget
          subst hget
          intro m hm
          rcases List.mem_append.mp hm with hm | hm
          · cases hold : parsed.markersByPath.get? (JsText.trim group) with
            | none => rw [hold] at hm; cases hm
            | some ms =>
                rw [hold] at hm
                exact h.marks _ ms hold m hm
          · rw [List.mem_singleton.mp hm]
            exact ⟨marksPath_iff.mpr ⟨group, hmatch, rfl⟩, hfound⟩
        · exact h.marks p ms ((hother heq).symm.trans hget)

theorem matchesFrom_spec {text : JsText} {skip : ℕ} {rest : JsText} (hrest : rest <:+ text)
    {group k : JsText} (hmem : (group, k) ∈ matchesFrom skip rest) :
    matchMarker k = some (group, k) ∧ k <:+: text := by
  induction rest generalizing skip with
  | nil => cases skip <;> cases hmem
  | cons u rest ih =>
      have htail : rest <:+ text := (List.suffix_cons u rest).trans hrest
      cases skip with
      | succ skip => exact ih htail hmem
      | zero =>
          rw [matchesFrom] at hmem
          split at hmem
          · next group' k' hmatch =>
              rcases List.mem_cons.mp hmem with heq | hmem
              · cases heq
                exact ⟨matchMarker_self hmatch,
                  (start_of_match hmatch).isInfix.trans hrest.isInfix⟩
              · exact ih htail hmem
          · exact ih htail hmem

theorem recorded_parse (text : JsText) : Recorded text (parseBridgeAttachMarkers text) := by
  have hfold : ∀ (found : List (JsText × JsText)) (parsed : ParsedAttachMarkers),
      (∀ f ∈ found, matchMarker f.2 = some f ∧ f.2 <:+: text) → Recorded text parsed →
        Recorded text (found.foldl AttachMarkers.addMatch parsed) := by
    intro found
    induction found with
    | nil => exact fun parsed _ h => h
    | cons f found ih =>
        intro parsed hfound h
        obtain ⟨hmatch, hinside⟩ := hfound f List.mem_cons_self
        exact ih _ (fun g hg => hfound g (List.mem_cons_of_mem f hg)) (h.addMatch hmatch hinside)
  refine hfold _ _ (fun f hf => matchesFrom_spec List.suffix_rfl hf) ⟨?_, ?_, ?_⟩
  · intro p hp
    cases hp
  · intro p ms hget
    cases hget
  · intro p ms hget
    cases hget

/-! ## What is taken out -/

def stripped (text path : JsText) : JsText :=
  stripMarkersForPath text (parseBridgeAttachMarkers text) path

/-- A line without the markers of the path, and no line when it is one marker. -/
def cutLine (path line : JsText) : Option JsText :=
  if marksPath path (JsText.trim line) then none
  else some (Words.cut (fun k => marksPath path k = true) line)

/-- The text without the markers that it has of the path, line by line. -/
def cutLines (text path : JsText) : JsText :=
  [newline].intercalate ((text.splitOn newline).filterMap (cutLine path))

structure RemovedCompletely (text path : JsText) : Prop where
  unmarked : ∀ k, marksPath path k = true → ¬ k <:+: stripped text path
  unparsed : path ∉ (parseBridgeAttachMarkers (stripped text path)).paths
  kept : stripped text path = cutLines text path
  idempotent : stripMarkersForPath (stripped text path) (parseBridgeAttachMarkers text) path =
    stripped text path
  restripped : stripped (stripped text path) path = stripped text path

/-- The markers of the path on one line are spelled like some that have been parsed, and no other
one appears, over the end of a line or from the pieces, when they have been taken out. -/
structure Removable (text path : JsText) : Prop where
  spelled : ∀ line ∈ text.splitOn newline, ∀ k, marksPath path k = true → k <:+: line →
    ∃ ms, (parseBridgeAttachMarkers text).markersByPath.get? path = some ms ∧ k ∈ ms
  apart : ∀ k, marksPath path k = true → ¬ k <:+: cutLines text path

theorem stripMarkersForPath_of_get {text path : JsText} {parsed : ParsedAttachMarkers}
    {ms : List JsText} (hget : parsed.markersByPath.get? path = some ms) (hms : ms ≠ []) :
    stripMarkersForPath text parsed path =
      [newline].intercalate ((text.splitOn newline).filterMap (stripLine ms)) := by
  rw [stripMarkersForPath, hget]
  cases ms with
  | nil => exact absurd rfl hms
  | cons m ms => rfl

theorem factor_intercalate {line : JsText} {lines : List JsText} (h : line ∈ lines) :
    line <:+: [newline].intercalate lines := by
  induction lines with
  | nil => cases h
  | cons first lines ih =>
      cases lines with
      | nil =>
          rw [List.mem_singleton.mp h, List.intercalate_singleton]
      | cons second lines =>
          rw [List.intercalate_cons_cons]
          rcases List.mem_cons.mp h with rfl | h
          · exact ((List.prefix_append line [newline]).trans (List.prefix_append _ _)).isInfix
          · exact (ih h).trans (List.suffix_append _ _).isInfix

theorem factor_trim (s : JsText) : JsText.trim s <:+: s := by
  obtain ⟨before, after, -, -, heq⟩ := exists_trim s
  exact ⟨before, after, by rw [List.append_assoc, ← heq]⟩

/-- Stripping leaves a text that has none of the markers as it is. -/
theorem strip_eq_self {ms : List JsText} {text : JsText} (h : ∀ m ∈ ms, ¬ m <:+: text) :
    [newline].intercalate ((text.splitOn newline).filterMap (stripLine ms)) = text := by
  have hline : ∀ line ∈ text.splitOn newline, stripLine ms line = some line := by
    intro line hmem
    have hinside : line <:+: text := by
      have hjoin := factor_intercalate hmem
      rwa [List.intercalate_splitOn] at hjoin
    have htrim : JsText.trim line ∉ ms := fun hm =>
      h _ hm ((factor_trim line).trans hinside)
    rw [stripLine, if_neg htrim]
    exact congrArg some
      (Words.removeEach_eq_self fun m hm hfound => h m hm (hfound.trans hinside))
  rw [List.filterMap_congr hline, List.filterMap_some, List.intercalate_splitOn]

/-- On a line that is a marker and white space there is no other one. -/
theorem eq_trim_of_factor {path line k : JsText} (hpath : path ≠ []) (hk : marksPath path k = true)
    (hline : marksPath path (JsText.trim line) = true) (hfound : k <:+: line) :
    k = JsText.trim line := by
  obtain ⟨before, after, hbefore, hafter, heq⟩ := exists_trim line
  obtain ⟨front, back, hfound⟩ := hfound
  have hmem : closing ∈ k := by
    obtain ⟨space, after, hmarker⟩ := exists_pathMarker hpath hk
    obtain ⟨body, rfl, -⟩ := hmarker.endMark
    simp
  have hsplit : front ++ (k ++ back) = before ++ (JsText.trim line ++ after) := by
    rw [← heq, ← hfound, List.append_assoc]
  have hK := nonOverlapping hpath
  rcases Nat.le_total front.length before.length with hle | hle
  · rcases hK.apart hk hline hsplit hle with ⟨-, rfl⟩ | ⟨between, rfl⟩
    · rfl
    · refine absurd ?_ (not_mem_of_blank hbefore)
      simp [hmem]
  · rcases hK.apart hline hk hsplit.symm hle with ⟨-, heq⟩ | ⟨between, rfl⟩
    · exact heq.symm
    · refine absurd ?_ (not_mem_of_blank hafter)
      have htail : after = between ++ (k ++ back) := by
        simpa [List.append_assoc] using hsplit.symm
      rw [htail]
      simp [hmem]

/-- Where the markers on the line have been parsed, and cutting them joins to no other one, the
line is stripped of just its markers. -/
theorem stripLine_eq_cutLine {path line : JsText} {ms : List JsText} (hpath : path ≠ [])
    (hms : ∀ m ∈ ms, marksPath path m = true)
    (hall : ∀ k, marksPath path k = true → k <:+: line → k ∈ ms)
    (hcut : ∀ rest, cutLine path line = some rest →
      ∀ k, marksPath path k = true → ¬ k <:+: rest) :
    stripLine ms line = cutLine path line := by
  by_cases hmarks : marksPath path (JsText.trim line) = true
  · rw [stripLine, cutLine, if_pos (hall _ hmarks (factor_trim line)), if_pos hmarks]
  · have hnot : JsText.trim line ∉ ms := fun hm => hmarks (hms _ hm)
    have hrest : cutLine path line = some (Words.cut (fun k => marksPath path k = true) line) :=
      if_neg hmarks
    rw [hrest, stripLine, if_neg hnot]
    exact congrArg some
      (Words.removeEach_eq_cut (nonOverlapping hpath) hms hall (hcut _ hrest))

theorem removedCompletely_of_removable {text path : JsText}
    (hparsed : path ∈ (parseBridgeAttachMarkers text).paths) (h : Removable text path) :
    RemovedCompletely text path := by
  have hrecorded := recorded_parse text
  obtain ⟨hpath, ms, hget⟩ := hrecorded.named path hparsed
  have hne := (hrecorded.listed path ms hget).2
  have hms : ∀ m ∈ ms, marksPath path m = true := fun m hm =>
    (hrecorded.marks path ms hget m hm).1
  have hkept : stripped text path = cutLines text path := by
    rw [stripped, stripMarkersForPath_of_get hget hne, cutLines]
    congr 1
    refine List.filterMap_congr fun line hline => ?_
    refine stripLine_eq_cutLine hpath hms (fun k hk hfound => ?_) fun rest hrest k hk hfound => ?_
    · obtain ⟨ms', hget', hmem⟩ := h.spelled line hline k hk hfound
      rw [hget, Option.some.injEq] at hget'
      rwa [hget']
    · have hmem := List.mem_filterMap.mpr ⟨line, hline, hrest⟩
      exact h.apart k hk (hfound.trans (factor_intercalate hmem))
  have hunmarked : ∀ k, marksPath path k = true → ¬ k <:+: stripped text path := by
    rw [hkept]
    exact h.apart
  have hunrecorded : ∀ ms', (parseBridgeAttachMarkers (stripped text path)).markersByPath.get?
      path = some ms' → ms' = [] := by
    intro ms' hget'
    refine List.eq_nil_iff_forall_not_mem.mpr fun m hm => ?_
    obtain ⟨hmark, hfound⟩ := (recorded_parse (stripped text path)).marks path ms' hget' m hm
    exact hunmarked m hmark hfound
  refine ⟨hunmarked, fun hmem => ?_, hkept, ?_, ?_⟩
  · obtain ⟨-, ms', hget'⟩ := (recorded_parse (stripped text path)).named path hmem
    exact ((recorded_parse (stripped text path)).listed path ms' hget').2 (hunrecorded ms' hget')
  · rw [stripMarkersForPath_of_get hget hne]
    exact strip_eq_self fun m hm => hunmarked m (hms m hm)
  · rw [stripped, stripMarkersForPath]
    cases hget' : (parseBridgeAttachMarkers (stripped text path)).markersByPath.get? path with
    | none => rfl
    | some ms' =>
        rw [hunrecorded ms' hget']

theorem removable_of_removedCompletely {text path : JsText}
    (hparsed : path ∈ (parseBridgeAttachMarkers text).paths) (h : RemovedCompletely text path) :
    Removable text path := by
  have hrecorded := recorded_parse text
  obtain ⟨hpath, ms, hget⟩ := hrecorded.named path hparsed
  have hne := (hrecorded.listed path ms hget).2
  have hms : ∀ m ∈ ms, marksPath path m = true := fun m hm =>
    (hrecorded.marks path ms hget m hm).1
  refine ⟨fun line hline k hk hfound => ⟨ms, hget, ?_⟩, fun k hk hfound => ?_⟩
  · by_contra hother
    by_cases hdropped : JsText.trim line ∈ ms
    · exact hother (eq_trim_of_factor hpath hk (hms _ hdropped) hfound ▸ hdropped)
    · have hstay := Words.factor_removeEach (nonOverlapping hpath) hms hk hother hfound
      have hmem : Words.removeEach ms line ∈ (text.splitOn newline).filterMap (stripLine ms) :=
        List.mem_filterMap.mpr ⟨line, hline, if_neg hdropped⟩
      refine h.unmarked k hk ?_
      rw [stripped, stripMarkersForPath_of_get hget hne]
      exact hstay.trans (factor_intercalate hmem)
  · rw [← h.kept] at hfound
    exact h.unmarked k hk hfound

def inlineSample : JsText := JsText.ofAscii "see [bridge-attach: /a/x] here"

def pathSample : JsText := JsText.ofAscii "/a/x"

/-- The white space of the pattern includes the end of a line. -/
def acrossLines : JsText := JsText.ofAscii "[bridge-attach:\n/a/x]"

end VicoopBridge.AttachMarkers
