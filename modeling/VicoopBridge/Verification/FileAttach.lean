import Mathlib.Algebra.Order.Ring.Unbundled.Rat
import Mathlib.Data.Rat.Cast.Order
import VicoopBridge.Library.Transition
import VicoopBridge.Model.FileAttach

/-! # What a read under the roots returns

A read stays under its roots as long as no symlink stands in its path as it opens the file, and the file
loses none of its names before they are counted. -/

namespace VicoopBridge

open Library

/-! ## Containment of the texts -/

theorem flattenPath_getLast? {p : FilePath} (hp : p ≠ []) :
    (flattenPath p).getLast? ≠ some '/' := by
  obtain ⟨p, n, rfl⟩ := (List.eq_nil_or_concat' p).resolve_left hp
  have hflat : flattenPath (p ++ [n]) = flattenPath p ++ '/' :: n.chars := by simp [flattenPath]
  rw [hflat, List.getLast?_append_of_ne_nil _ (List.cons_ne_nil _ _),
    List.getLast?_cons_of_ne_nil n.plain.1]
  exact fun hlast => n.plain.2.1 (List.mem_of_getLast? hlast)

theorem isPathInside_iff (r p : FilePath) :
    isPathInside (ensureTrailingSep (renderPath r)) (renderPath p) = true ↔ r <+: p := by
  unfold isPathInside
  rw [Bool.or_eq_true, List.isPrefixOf_iff_prefix, decide_eq_true_iff]
  by_cases hr : r = []
  · subst hr
    refine iff_of_true (.inr ?_) List.nil_prefix
    have hroot : ensureTrailingSep (renderPath []) = ['/'] := rfl
    rw [hroot]
    cases p with
    | nil => exact List.prefix_rfl
    | cons n q => exact ⟨n.chars ++ flattenPath q, rfl⟩
  · have hroot : ensureTrailingSep (renderPath r) = flattenPath r ++ ['/'] := by
      unfold ensureTrailingSep renderPath
      rw [if_neg hr, if_neg (flattenPath_getLast? hr)]
    rw [hroot, List.dropLast_concat]
    unfold renderPath
    split
    · rename_i hp
      subst hp
      obtain ⟨n, q, rfl⟩ := List.exists_cons_of_ne_nil hr
      obtain ⟨c, cs, hc⟩ := List.exists_cons_of_ne_nil n.plain.1
      have hflat : flattenPath (n :: q) = '/' :: c :: (cs ++ flattenPath q) := by
        simp [flattenPath, hc]
      rw [hflat]
      simp
    · rw [← flattenPath_under_iff r p, eq_comm (a := flattenPath r)]

/-! ## The claim -/

def readSystem : System FileRead ReadAction where
  init x := ∃ params fs, x = readBoundedFileWithinRoots params fs
  step x a x' := x.Allows a ∧ x.perform a = some x'

namespace FileRead

variable {x x' : FileRead}

/-- The path lies under one of the canonical roots. -/
def InRoots (x : FileRead) (p : FilePath) : Prop :=
  ∃ r, ensureTrailingSep (renderPath r) ∈ x.canonicalRoots ∧ r <+: p

/-- What is returned is the content of a file that lay under the roots as it was opened, and only
there. -/
structure Contained (x : FileRead) (result : SafeReadResult) (fs : FileSystem) (i : Inode) :
    Prop where
  regular : ∃ content, fs.kinds i = some (.regular content)
  single : fs.nlink i = 1
  inside : ∃ p, fs.walk p = some i ∧ x.InRoots p
  nowhereElse : ∀ p, fs.walk p = some i → x.InRoots p
  content : ∀ (k : ℕ) (b : UInt8), result.buffer[k]? = some b →
    ∃ content ∈ x.contents, content[k]? = some b
  bounded : ∃ cap ∈ x.params.maxBytes, (result.buffer.length : ℚ) ≤ cap

def ReadSpec (x : FileRead) : Prop :=
  ∀ result, x.phase = .done (.ok result) →
    ∃ fs i, x.opened = some (fs, i) ∧ x.Contained result fs i

/-- The path the file is opened by has no symlink in it, but for the last place where the open refuses
one, and an open file with several names is not brought down to one before they are counted. -/
def Careful (x : FileRead) : ReadAction → Prop
  | .call => ∀ realPath lstat, x.phase = .opening realPath lstat →
      x.fs.Straight (!x.params.supportsNofollow) realPath
  | .change change => ∀ realPath lstat handle, x.phase = .checking realPath lstat handle →
      1 < x.fs.nlink handle → 1 < (x.fs.apply change).nlink handle
  | _ => True

/-! ## The invariant -/

/-- What is known of the open file. -/
structure OpenedAt (x : FileRead) (fs : FileSystem) (p : FilePath) (i : Inode) : Prop where
  inside : x.InRoots p
  walk : fs.walk p = some i
  there : x.fs.kinds i ≠ none
  regular : (∃ content, x.fs.kinds i = some (.regular content)) →
    ∃ content, fs.kinds i = some (.regular content)

/-- The bytes come from what the file held at the reads. -/
def FromContents (x : FileRead) (read : List UInt8) : Prop :=
  ∀ (k : ℕ) (b : UInt8), read[k]? = some b → ∃ content ∈ x.contents, content[k]? = some b

/-- An open file that has passed its checks. -/
structure Accepted (x : FileRead) (fs : FileSystem) (p : FilePath) (i : Inode) (claimedSize : ℕ) :
    Prop where
  openedAt : x.OpenedAt fs p i
  regular : ∃ content, fs.kinds i = some (.regular content)
  single : fs.nlink i ≤ 1
  bounded : ∃ cap ∈ x.params.maxBytes, (claimedSize : ℚ) ≤ cap

theorem OpenedAt.frame {fs : FileSystem} {p : FilePath} {i : Inode} (h : x.OpenedAt fs p i)
    (hroots : x'.canonicalRoots = x.canonicalRoots) (hfs : x'.fs = x.fs) : x'.OpenedAt fs p i := by
  refine ⟨?_, h.walk, ?_, ?_⟩
  · unfold InRoots
    rw [hroots]
    exact h.inside
  · rw [hfs]
    exact h.there
  · rw [hfs]
    exact h.regular

theorem Accepted.frame {fs : FileSystem} {p : FilePath} {i : Inode} {claimedSize : ℕ}
    (h : x.Accepted fs p i claimedSize) (hroots : x'.canonicalRoots = x.canonicalRoots)
    (hfs : x'.fs = x.fs) (hparams : x'.params = x.params) : x'.Accepted fs p i claimedSize :=
  ⟨h.openedAt.frame hroots hfs, h.regular, h.single, by rw [hparams]; exact h.bounded⟩

theorem Contained.frame {result : SafeReadResult} {fs : FileSystem} {i : Inode}
    (h : x.Contained result fs i) (hroots : x'.canonicalRoots = x.canonicalRoots)
    (hcontents : x'.contents = x.contents) (hparams : x'.params = x.params) :
    x'.Contained result fs i := by
  refine ⟨h.regular, h.single, ?_, ?_, ?_, ?_⟩
  · unfold InRoots
    rw [hroots]
    exact h.inside
  · unfold InRoots
    rw [hroots]
    exact h.nowhereElse
  · rw [hcontents]
    exact h.content
  · rw [hparams]
    exact h.bounded

def Holds (x : FileRead) : Prop :=
  match x.phase with
  | .rooting _ | .resolving => True
  | .locating p | .opening p _ => x.InRoots p
  | .checking p _ handle => ∃ fs, x.opened = some (fs, handle) ∧ x.OpenedAt fs p handle ∧
      (1 < fs.nlink handle → 1 < x.fs.nlink handle)
  | .reading p handle claimedSize read => ∃ fs, x.opened = some (fs, handle) ∧
      x.Accepted fs p handle claimedSize ∧ x.FromContents read
  | .done (.ok result) => ∃ fs i, x.opened = some (fs, i) ∧ x.Contained result fs i
  | .done (.error _) => True

structure Invariant (x : FileRead) : Prop where
  rendered : ∀ root ∈ x.canonicalRoots, ∃ r, root = ensureTrailingSep (renderPath r)
  capped : (∀ outcome, x.phase ≠ .done outcome) → x.params.maxBytes.isSome = true
  holds : x.Holds

theorem Invariant.failed (h : x.Invariant) {failure : ReadFailure} :
    Invariant { x with phase := .done (.error failure) } :=
  ⟨h.rendered, fun hnot => absurd rfl (hnot _), trivial⟩

theorem Invariant.resolveRoots (h : x.Invariant) (hcap : x.params.maxBytes.isSome = true)
    (rest : List PathText) : (x.resolveRoots rest).Invariant := by
  unfold FileRead.resolveRoots
  split
  · exact ⟨h.rendered, fun _ => hcap, trivial⟩
  · split
    · exact h.failed
    · exact ⟨h.rendered, fun _ => hcap, trivial⟩

theorem Invariant.onRoot (h : x.Invariant) {root : PathText} {rest : List PathText}
    (hp : x.phase = .rooting (root :: rest)) (real : Except Errno FilePath) :
    (x.onRoot rest real).Invariant := by
  have hcap := h.capped (by simp [hp])
  unfold FileRead.onRoot
  cases real with
  | error e => exact h.resolveRoots hcap rest
  | ok real =>
      refine Invariant.resolveRoots
        (x := { x with canonicalRoots := x.canonicalRoots ++ [ensureTrailingSep (renderPath real)] })
        ⟨fun r hr => ?_, h.capped, ?_⟩ hcap rest
      · rcases List.mem_append.mp hr with hold | hnew
        · exact h.rendered r hold
        · exact ⟨real, List.mem_singleton.mp hnew⟩
      · unfold Holds
        rw [hp]
        trivial

/-- A path that passes the check lies under a root. -/
theorem Invariant.inRoots (h : x.Invariant) {p : FilePath}
    (hinside : (x.canonicalRoots.any fun r => isPathInside r (renderPath p)) = true) : x.InRoots p := by
  obtain ⟨root, hroot, hin⟩ := List.any_eq_true.mp hinside
  obtain ⟨r, rfl⟩ := h.rendered root hroot
  exact ⟨r, hroot, (isPathInside_iff r p).mp hin⟩

theorem Invariant.onRealpath (h : x.Invariant) (hcap : x.params.maxBytes.isSome = true)
    (result : Except Errno FilePath) : (x.onRealpath result).Invariant := by
  unfold FileRead.onRealpath
  split
  · exact h.failed
  · exact h.failed
  · split
    · rename_i hinside
      exact ⟨h.rendered, fun _ => hcap, h.inRoots hinside⟩
    · exact h.failed

theorem Invariant.onLstat (h : x.Invariant) {p : FilePath} (hp : x.phase = .locating p)
    (lstat : Inode) : (x.onLstat p lstat).Invariant := by
  have hin := h.holds
  unfold Holds at hin
  rw [hp] at hin
  unfold FileRead.onLstat
  split
  · exact h.failed
  · exact ⟨h.rendered, fun _ => h.capped (by simp [hp]), hin⟩
  · exact h.failed

theorem Invariant.onOpen (h : x.Invariant) {p : FilePath} {lstat handle : Inode}
    (hp : x.phase = .opening p lstat)
    (hstraight : x.fs.Straight (!x.params.supportsNofollow) p)
    (hopen : x.fs.openFile x.params.supportsNofollow (renderPath p) = .ok handle) :
    (x.onOpen p lstat handle).Invariant := by
  have hin := h.holds
  unfold Holds at hin
  rw [hp] at hin
  obtain ⟨hwalk, hthere⟩ := FileSystem.walk_of_openFile hstraight hopen
  exact ⟨h.rendered, fun _ => h.capped (by simp [hp]),
    x.fs, rfl, ⟨hin, hwalk, hthere, fun hregular => hregular⟩, fun hlinks => hlinks⟩

theorem Invariant.onStat (h : x.Invariant) {p : FilePath} {lstat handle : Inode}
    (hp : x.phase = .checking p lstat handle) : (x.onStat p lstat handle).Invariant := by
  have hholds := h.holds
  unfold Holds at hholds
  rw [hp] at hholds
  obtain ⟨fs, hopened, hat, hlinks⟩ := hholds
  have hcap := h.capped (by simp [hp])
  unfold FileRead.onStat
  split
  · rename_i content hregular
    dsimp only
    split
    · exact h.failed
    · split
      · exact h.failed
      · rename_i hsingle
        split
        · exact h.failed
        · rename_i hsize
          obtain ⟨cap, hcapped⟩ := Option.isSome_iff_exists.mp hcap
          have hbounded : (content.length : ℚ) ≤ cap := by
            refine le_of_not_gt fun hlt => hsize ?_
            rw [hcapped]
            exact decide_eq_true hlt
          exact ⟨h.rendered, fun _ => hcap, fs, hopened,
            ⟨hat.frame rfl rfl, hat.regular ⟨content, hregular⟩,
              Nat.le_of_not_lt fun hmany => hsingle (hlinks hmany), cap, hcapped, hbounded⟩, by simp [FromContents]⟩
  · exact h.failed

theorem Accepted.contained {fs : FileSystem} {p : FilePath} {i : Inode} {claimedSize : ℕ}
    (h : x.Accepted fs p i claimedSize) {read : List UInt8} (hread : x.FromContents read)
    (hsize : read.length ≤ claimedSize) (path : PathText) :
    x.Contained { buffer := read, realPath := path, size := read.length } fs i := by
  have hone : 1 ≤ fs.nlink i := by
    rcases List.eq_nil_or_concat' p with rfl | ⟨q, n, rfl⟩
    · -- the root is no regular file
      obtain ⟨content, hregular⟩ := h.regular
      obtain rfl := Option.some.inj h.openedAt.walk
      rw [fs.root_directory] at hregular
      cases hregular
    · obtain ⟨d, -, -, hname⟩ := FileSystem.exists_name_of_walk h.openedAt.walk
      exact FileSystem.one_le_nlink hname
  obtain ⟨cap, hcap, hbounded⟩ := h.bounded
  refine ⟨h.regular, le_antisymm h.single hone, ⟨p, h.openedAt.walk, h.openedAt.inside⟩,
    fun q hq => ?_, hread, cap, hcap, ?_⟩
  · obtain rfl := FileSystem.walk_injective h.openedAt.walk hq h.single
    exact h.openedAt.inside
  · exact le_trans (by exact_mod_cast hsize) hbounded

theorem Invariant.onRead (h : x.Invariant) {p : FilePath} {handle : Inode} {claimedSize n : ℕ}
    {read : List UInt8} (hp : x.phase = .reading p handle claimedSize read)
    (hstep : x.onRead p handle claimedSize read n = some x') : x'.Invariant := by
  have hholds := h.holds
  unfold Holds at hholds
  rw [hp] at hholds
  obtain ⟨fs, hopened, haccepted, hread⟩ := hholds
  have hcap := h.capped (by simp [hp])
  unfold FileRead.onRead at hstep
  split at hstep
  · rename_i content hregular
    split at hstep
    · have hnext : FromContents { x with contents := x.contents ++ [content] }
          (read ++ (content.drop read.length).take n) := by
        intro k b hk
        rw [List.getElem?_append] at hk
        split at hk
        · obtain ⟨old, hold, hb⟩ := hread k b hk
          exact ⟨old, List.mem_append_left _ hold, hb⟩
        · rename_i hge
          refine ⟨content, List.mem_append_right _ List.mem_cons_self, ?_⟩
          rw [List.getElem?_take] at hk
          split at hk
          · rw [List.getElem?_drop, Nat.add_sub_cancel' (Nat.le_of_not_lt hge)] at hk
            exact hk
          · cases hk
      dsimp only at hstep
      split at hstep
      · obtain rfl := Option.some.inj hstep
        unfold onReadAll
        split
        · exact ⟨h.rendered, fun hnot => absurd rfl (hnot _), trivial⟩
        · rename_i hsize
          have haccepted' : Accepted { x with contents := x.contents ++ [content] } fs p handle
            claimedSize := haccepted.frame rfl rfl rfl
          exact ⟨h.rendered, fun hnot => absurd rfl (hnot _), fs, handle, hopened,
            (haccepted'.contained hnext (Nat.le_of_not_lt hsize) (renderPath p)).frame rfl rfl rfl⟩
      · obtain rfl := Option.some.inj hstep
        exact ⟨h.rendered, fun _ => hcap, fs, hopened, haccepted.frame rfl rfl rfl, hnext⟩
    · cases hstep
  · cases hstep

/-- What others do to the file system leaves what is known of the open file. -/
theorem OpenedAt.change {fs : FileSystem} {p : FilePath} {i : Inode} (h : x.OpenedAt fs p i)
    {change : FileSystem.Change} (hkept : change ≠ .forget i) :
    OpenedAt { x with fs := x.fs.apply change } fs p i := by
  rcases FileSystem.kinds_apply h.there hkept with hsame | ⟨hregular, content, hnew⟩
  · refine ⟨h.inside, h.walk, ?_, ?_⟩
    · rw [hsame]
      exact h.there
    · rw [hsame]
      exact h.regular
  · refine ⟨h.inside, h.walk, ?_, fun _ => h.regular hregular⟩
    rw [hnew]
    exact Option.some_ne_none _

theorem Invariant.change (h : x.Invariant) {change : FileSystem.Change}
    (hallows : x.Allows (.change change)) (hcareful : x.Careful (.change change)) :
    Invariant { x with fs := x.fs.apply change } := by
  have hkept : ∀ i, x.handle? = some i → change ≠ .forget i := by
    rintro i hi rfl
    exact hallows hi
  have hholds := h.holds
  refine ⟨h.rendered, h.capped, ?_⟩
  unfold Holds at hholds ⊢
  cases hp : x.phase with
  | rooting rest => trivial
  | resolving => trivial
  | locating p =>
      rw [hp] at hholds
      exact hholds
  | opening p lstat =>
      rw [hp] at hholds
      exact hholds
  | checking p lstat handle =>
      rw [hp] at hholds
      obtain ⟨fs, hopened, hat, hlinks⟩ := hholds
      have hhandle : x.handle? = some handle := by simp [handle?, hp]
      exact ⟨fs, hopened, (hat.change (hkept handle hhandle)).frame rfl rfl,
        fun hmany => hcareful p lstat handle hp (hlinks hmany)⟩
  | reading p handle claimedSize read =>
      rw [hp] at hholds
      obtain ⟨fs, hopened, haccepted, hread⟩ := hholds
      have hhandle : x.handle? = some handle := by simp [handle?, hp]
      have hat := haccepted.openedAt.change (hkept handle hhandle)
      exact ⟨fs, hopened, ⟨hat.frame rfl rfl, haccepted.regular, haccepted.single,
        haccepted.bounded⟩, hread⟩
  | done outcome =>
      rw [hp] at hholds
      cases outcome with
      | error failure => trivial
      | ok result =>
          obtain ⟨fs, i, hopened, hcontained⟩ := hholds
          exact ⟨fs, i, hopened, hcontained.frame rfl rfl rfl⟩

theorem Invariant.onCall (h : x.Invariant) (hcareful : x.Careful .call) (hcall : x.onCall = some x') :
    x'.Invariant := by
  unfold FileRead.onCall at hcall
  split at hcall
  · rename_i root rest hp
    obtain rfl := Option.some.inj hcall
    exact h.onRoot hp _
  · rename_i hp
    obtain rfl := Option.some.inj hcall
    exact h.onRealpath (h.capped (by simp [hp])) _
  · rename_i p hp
    split at hcall
    · obtain rfl := Option.some.inj hcall
      exact h.failed
    · obtain rfl := Option.some.inj hcall
      exact h.onLstat hp _
  · rename_i p lstat hp
    split at hcall
    · obtain rfl := Option.some.inj hcall
      exact h.failed
    · rename_i handle hopen
      obtain rfl := Option.some.inj hcall
      exact h.onOpen hp (hcareful p lstat hp) hopen
  · rename_i p lstat handle hp
    obtain rfl := Option.some.inj hcall
    exact h.onStat hp
  · cases hcall

theorem Invariant.onFailed (h : x.Invariant) {error : Errno} (hfailed : x.onFailed error = some x') :
    x'.Invariant := by
  unfold FileRead.onFailed at hfailed
  split at hfailed
  · rename_i root rest hp
    obtain rfl := Option.some.inj hfailed
    exact h.onRoot hp _
  · rename_i hp
    obtain rfl := Option.some.inj hfailed
    exact h.onRealpath (h.capped (by simp [hp])) _
  all_goals first
    | exact Option.some.inj hfailed ▸ h.failed
    | cases hfailed

theorem Invariant.step {a : ReadAction} (h : x.Invariant) (hcareful : x.Careful a)
    (hstep : readSystem.step x a x') : x'.Invariant := by
  obtain ⟨hallows, hperform⟩ := hstep
  cases a with
  | call => exact h.onCall hcareful hperform
  | failed error => exact h.onFailed hperform
  | read n =>
      unfold perform at hperform
      dsimp only at hperform
      split at hperform
      · rename_i p handle claimedSize read hp
        exact h.onRead hp hperform
      · cases hperform
  | change change =>
      obtain rfl := Option.some.inj hperform
      exact h.change hallows hcareful

theorem invariant_start (params : ReadParams) (fs : FileSystem) :
    (readBoundedFileWithinRoots params fs).Invariant := by
  unfold readBoundedFileWithinRoots
  have hfresh : ∀ failure, Invariant
      { params := params, fs := fs, phase := .done (.error failure) } :=
    fun _ => ⟨nofun, fun hnot => absurd rfl (hnot _), trivial⟩
  dsimp only
  split
  · exact hfresh _
  · rename_i hcap
    have hsome : params.maxBytes.isSome = true := by
      cases hmax : params.maxBytes with
      | none => simp [hmax] at hcap
      | some cap => rfl
    split
    · exact hfresh _
    · split
      · exact hfresh _
      · split
        · exact hfresh _
        · exact Invariant.resolveRoots (x := { params := params, fs := fs, phase := .resolving })
            ⟨nofun, fun _ => hsome, trivial⟩ hsome _
        · refine ⟨fun root hroot => ?_, fun _ => hsome, trivial⟩
          obtain ⟨r, -, rfl⟩ := List.mem_map.mp hroot
          exact ⟨r, rfl⟩

section Runs

/-- A change is made under the roots. -/
def BelowRoots (x : FileRead) : ReadAction → Prop
  | .change (.create dir _ _ _) | .change (.link _ dir _) | .change (.unlink dir _) => x.InRoots dir
  | .change (.rename dir _ dir' _) => x.InRoots dir ∧ x.InRoots dir'
  | .change (.write inode _) => ∃ p, x.fs.walk p = some inode ∧ x.InRoots p
  | _ => True

private def after (x : FileRead) (a : ReadAction) : FileRead := (x.perform a).getD x

private theorem after_reachable {allowed : FileRead → ReadAction → Prop}
    (h : (readSystem.restrict allowed).Reachable x) (a : ReadAction) (hallowed : allowed x a)
    (hallows : x.Allows a) (hcan : (x.perform a).isSome = true) :
    (readSystem.restrict allowed).Reachable (x.after a) := by
  obtain ⟨x', hx'⟩ := Option.isSome_iff_exists.mp hcan
  refine h.step (a := a) ⟨hallowed, hallows, ?_⟩
  rw [after, hx', Option.getD_some]

private def fileName (text : String) (h : text.toList ≠ [] ∧ '/' ∉ text.toList ∧
    text.toList ≠ ['.'] ∧ text.toList ≠ ['.', '.']) : FileName := ⟨text.toList, h⟩

private def srv : FileName := fileName "srv" (by decide)
private def docs : FileName := fileName "docs" (by decide)
private def etc : FileName := fileName "etc" (by decide)
private def notes : FileName := fileName "notes" (by decide)

private def emptyFileSystem : FileSystem where
  kinds i := if i = 0 then some .directory else none
  names := .empty
  root_directory := rfl
  root_unnamed := rfl
  directory_once _ _ := Nat.zero_le 1

/-- A file in a directory under the root `/srv`, and one of the same name outside. -/
private def fileTree : FileSystem :=
  [FileSystem.Change.create [] srv 1 .directory, .create [srv] docs 2 .directory,
    .create [srv, docs] notes 3 (.regular [1, 2]), .create [] etc 4 .directory,
    .create [etc] notes 5 (.regular [7])].foldl .apply emptyFileSystem

private def readNotes : FileRead :=
  readBoundedFileWithinRoots
    { filePath := "/srv/docs/notes".toList, maxBytes := some 10, maxBytesText := "10"
      roots := .allowed ["/srv".toList], cwd := "/".toList, supportsNofollow := true } fileTree

private def openedNotes : FileRead := (((readNotes.after .call).after .call).after .call).after .call

private def readingNotes : FileRead := (openedNotes.after .call).after (.read 2)

private theorem careful_call {phase : ReadPhase} (hphase : x.phase = phase)
    (h : ∀ p lstat, phase ≠ .opening p lstat) : x.Careful .call :=
  fun p lstat hp => absurd (hphase.symm.trans hp) (h p lstat)

/-- The directory has become a symlink since the path was resolved. -/
private def swappedNotes : FileRead :=
  (((readNotes.after .call).after .call).after
    (.change (.rename [srv] docs [srv] notes))).after
      (.change (.create [srv] docs 6 (.symlink "/etc".toList)))

private def leakedNotes : FileRead :=
  ((((swappedNotes.after .call).after .call).after .call).after (.read 1)).after (.read 0)

end Runs

end FileRead

end VicoopBridge
