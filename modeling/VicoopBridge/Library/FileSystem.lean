import Mathlib.Data.List.Induction
import Mathlib.Data.List.Infix
import Mathlib.Logic.Function.Basic
import VicoopBridge.Library.InsertionMap

/-! # A file system

Directories bind names to inodes, and a name may be bound to a symlink. A path is looked up from the
root one name at a time; what the names are bound to may have changed by the next lookup. -/

namespace VicoopBridge.Library

/-! ## Paths -/

/-- A name a directory can hold. -/
@[ext] structure FileName where
  chars : List Char
  plain : chars ≠ [] ∧ '/' ∉ chars ∧ chars ≠ ['.'] ∧ chars ≠ ['.', '.']
  deriving DecidableEq

/-- The names from the root down. -/
abbrev FilePath := List FileName

abbrev PathText := List Char

inductive PathComponent where
  | here
  | up
  | name (n : FileName)
  deriving DecidableEq

def PathComponent.ofChars (chars : List Char) : PathComponent :=
  if h : chars ≠ [] ∧ '/' ∉ chars ∧ chars ≠ ['.'] ∧ chars ≠ ['.', '.'] then .name ⟨chars, h⟩
  else if chars = ['.', '.'] then .up
  else .here

/-- What stands between the slashes. -/
def splitSlashes : PathText → List (List Char)
  | [] => [[]]
  | c :: rest =>
      match splitSlashes rest with
      | part :: parts => if c = '/' then [] :: part :: parts else (c :: part) :: parts
      | [] => [[c]]

/-- A trailing slash asks for a directory, as a dot does. -/
def parsePath (text : PathText) : List PathComponent :=
  (splitSlashes text).map PathComponent.ofChars

def isAbsolutePath (text : PathText) : Bool := text.head? = some '/'

def flattenPath (p : FilePath) : PathText := p.flatMap fun n => '/' :: n.chars

def renderPath (p : FilePath) : PathText := if p = [] then ['/'] else flattenPath p

/-- Take `.` and `..` out of a path without looking it up. -/
def normalizePath (components : List PathComponent) : FilePath :=
  components.foldl (fun p component =>
    match component with
    | .here => p
    | .up => p.dropLast
    | .name n => p ++ [n]) []

/-! ### Reading back a rendered path -/

theorem ofChars_name (n : FileName) : PathComponent.ofChars n.chars = .name n := dif_pos n.plain

theorem splitSlashes_ne_nil (text : PathText) : splitSlashes text ≠ [] := by
  cases text with
  | nil => exact List.cons_ne_nil _ _
  | cons c rest =>
      unfold splitSlashes
      split
      · split <;> exact List.cons_ne_nil _ _
      · exact List.cons_ne_nil _ _

theorem splitSlashes_slash (text : PathText) : splitSlashes ('/' :: text) = [] :: splitSlashes text := by
  rw [splitSlashes]
  split
  · rename_i part parts heq
    rw [if_pos rfl, heq]
  · rename_i hnil
    exact absurd hnil (splitSlashes_ne_nil text)

theorem splitSlashes_append {name : List Char} (h : '/' ∉ name) {text : PathText} {part : List Char}
    {parts : List (List Char)} (htext : splitSlashes text = part :: parts) :
    splitSlashes (name ++ text) = (name ++ part) :: parts := by
  induction name with
  | nil => exact htext
  | cons c name ih =>
      obtain ⟨hc, hrest⟩ : '/' ≠ c ∧ '/' ∉ name := by simpa using h
      rw [List.cons_append, splitSlashes, ih hrest]
      simp [Ne.symm hc]

theorem splitSlashes_flattenPath (p : FilePath) :
    splitSlashes (flattenPath p) = [] :: p.map (·.chars) := by
  induction p with
  | nil => rfl
  | cons n p ih =>
      have hflat : flattenPath (n :: p) = '/' :: (n.chars ++ flattenPath p) := rfl
      rw [hflat, splitSlashes_slash, splitSlashes_append n.plain.2.1 ih, List.append_nil]
      rfl

theorem parsePath_renderPath (p : FilePath) :
    ∃ dots, parsePath (renderPath p) = .here :: dots ++ p.map .name ∧ ∀ c ∈ dots, c = .here := by
  unfold renderPath parsePath
  split
  · rename_i hnil
    subst hnil
    exact ⟨[.here], rfl, by simp⟩
  · refine ⟨[], ?_, by simp⟩
    rw [splitSlashes_flattenPath]
    simp [ofChars_name]
    rfl

/-! ### Prefixes -/

/-- What a name is followed by: nothing, or a slash. -/
def AtSlash (text : PathText) : Prop := text = [] ∨ ∃ rest, text = '/' :: rest

theorem atSlash_flattenPath (p : FilePath) : AtSlash (flattenPath p) := by
  cases p with
  | nil => exact .inl rfl
  | cons n p => exact .inr ⟨n.chars ++ flattenPath p, rfl⟩

theorem name_append_inj {a b : List Char} {x y : PathText} (ha : '/' ∉ a) (hb : '/' ∉ b)
    (hx : AtSlash x) (hy : AtSlash y) (h : a ++ x = b ++ y) : a = b ∧ x = y := by
  have hname : ∀ {c : List Char} {z : PathText}, '/' ∉ c → AtSlash z →
      (c ++ z).takeWhile (· ≠ '/') = c := by
    intro c z hc hz
    rw [List.takeWhile_append_of_pos fun d hd => by
      simpa using fun heq : d = '/' => hc (heq ▸ hd)]
    obtain rfl | ⟨rest, rfl⟩ := hz <;> simp
  have hab : a = b := by rw [← hname ha hx, h, hname hb hy]
  exact ⟨hab, List.append_cancel_left (hab ▸ h)⟩

/-- A path lies under another one exactly if its text continues the other's at a slash. -/
theorem flattenPath_under_iff (r p : FilePath) :
    (flattenPath r = flattenPath p ∨ (flattenPath r ++ ['/']) <+: flattenPath p) ↔ r <+: p := by
  induction r generalizing p with
  | nil =>
      refine iff_of_true ?_ (List.nil_prefix)
      obtain hnil | ⟨rest, hrest⟩ := atSlash_flattenPath p
      · exact .inl hnil.symm
      · exact .inr ⟨rest, hrest.symm⟩
  | cons n r ih =>
      cases p with
      | nil => exact iff_of_false (by simp [flattenPath]) (by simp)
      | cons m p =>
          have hcons : ∀ (k : FileName) (q : FilePath),
              flattenPath (k :: q) = '/' :: (k.chars ++ flattenPath q) := fun _ _ => rfl
          rw [List.cons_prefix_cons, ← ih p, hcons, hcons]
          constructor
          · rintro (heq | ⟨t, ht⟩)
            · obtain ⟨hname, hrest⟩ := name_append_inj n.plain.2.1 m.plain.2.1
                (atSlash_flattenPath r) (atSlash_flattenPath p) (List.cons.inj heq).2
              exact ⟨FileName.ext hname, .inl hrest⟩
            · have ht : n.chars ++ (flattenPath r ++ '/' :: t) = m.chars ++ flattenPath p := by
                simpa using ht
              have hslash : AtSlash (flattenPath r ++ '/' :: t) := by
                obtain hnil | ⟨rest, hrest⟩ := atSlash_flattenPath r
                · exact .inr ⟨t, by rw [hnil]; rfl⟩
                · exact .inr ⟨rest ++ '/' :: t, by rw [hrest]; rfl⟩
              obtain ⟨hname, hrest⟩ := name_append_inj n.plain.2.1 m.plain.2.1 hslash
                (atSlash_flattenPath p) ht
              exact ⟨FileName.ext hname, .inr ⟨t, by rw [← hrest]; simp⟩⟩
          · rintro ⟨rfl, heq | ⟨t, ht⟩⟩
            · exact .inl (by rw [heq])
            · exact .inr ⟨t, by rw [← ht]; simp⟩

/-! ## The file system -/

abbrev Inode := ℕ

inductive FileKind where
  | directory
  | regular (content : List UInt8)
  | symlink (target : PathText)
  | special
  deriving DecidableEq

def FileKind.isSymlink : FileKind → Bool
  | .symlink _ => true
  | _ => false

/-- How many names are bound to an inode. -/
def linkCount (names : InsertionMap (Inode × FileName) Inode) (i : Inode) : ℕ :=
  (names.values.map fun j => if j = i then 1 else 0).sum

/-- The root is inode 0. A directory has one name at most, the root none. -/
structure FileSystem where
  kinds : Inode → Option FileKind
  names : InsertionMap (Inode × FileName) Inode
  root_directory : kinds 0 = some .directory
  root_unnamed : linkCount names 0 = 0
  directory_once : ∀ i, kinds i = some .directory → linkCount names i ≤ 1

/-- The error codes of its calls. -/
inductive Errno where
  | noEntry
  | other (code : String)
  deriving DecidableEq

namespace FileSystem

variable (fs : FileSystem)

def nlink (i : Inode) : ℕ := linkCount fs.names i

def child (d : Inode) (n : FileName) : Option Inode :=
  if fs.kinds d = some .directory then fs.names.get? (d, n) else none

/-- The inode at a path, with symlinks taken for what they are. -/
def walk (p : FilePath) : Option Inode := p.foldlM fs.child 0

/-- Look up `components` from the directory `here`; `again` goes on behind a symlink. -/
def followWith (last : Bool) (again : FilePath → List PathComponent → Except Errno FilePath) :
    FilePath → List PathComponent → Except Errno FilePath
  | here, [] => .ok here
  | here, .here :: rest => followWith last again here rest
  | here, .up :: rest => followWith last again here.dropLast rest
  | here, .name n :: rest =>
      match (fs.walk (here ++ [n])).bind fs.kinds with
      | none => .error .noEntry
      | some (.symlink target) =>
          if rest = [] ∧ last = false then .ok (here ++ [n])
          else again (if isAbsolutePath target then [] else here) (parsePath target ++ rest)
      | some .directory => followWith last again (here ++ [n]) rest
      | some _ => if rest = [] then .ok (here ++ [n]) else .error (.other "ENOTDIR")

/-- Symlinks are followed `links` times; one in the last place only if `last` says so. -/
def follow (last : Bool) : ℕ → FilePath → List PathComponent → Except Errno FilePath
  | 0 => fs.followWith last fun _ _ => .error (.other "ELOOP")
  | links + 1 => fs.followWith last (follow last links)

def maxLinks : ℕ := 40

/-- Where an absolute path leads. -/
def locate (last : Bool) (text : PathText) : Except Errno FilePath :=
  fs.follow last maxLinks [] (parsePath text)

def realpath (text : PathText) : Except Errno FilePath := fs.locate true text

/-- The inode, not followed in the last place. -/
def lstat (text : PathText) : Except Errno Inode :=
  match fs.locate false text with
  | .error e => .error e
  | .ok p => (fs.walk p).elim (.error .noEntry) .ok

def openFile (noFollow : Bool) (text : PathText) : Except Errno Inode :=
  match fs.locate (!noFollow) text with
  | .error e => .error e
  | .ok p =>
      match fs.walk p with
      | none => .error .noEntry
      | some i =>
          match fs.kinds i with
          | none => .error .noEntry
          | some (.symlink _) => .error (.other "ELOOP")
          | some _ => .ok i

/-! ## Changes -/

theorem nlink_erase_le (k : Inode × FileName) (i : Inode) :
    linkCount (fs.names.erase k) i ≤ linkCount fs.names i := by
  have hsum := InsertionMap.sum_values_erase (fun j => if j = i then 1 else 0) fs.names k
  unfold linkCount
  omega

def unname (d : Inode) (n : FileName) : FileSystem where
  kinds := fs.kinds
  names := fs.names.erase (d, n)
  root_directory := fs.root_directory
  root_unnamed := by
    have hle := fs.nlink_erase_le (d, n) 0
    rw [fs.root_unnamed] at hle
    exact Nat.le_zero.mp hle
  directory_once i hi := Nat.le_trans (fs.nlink_erase_le (d, n) i) (fs.directory_once i hi)

theorem nlink_set_le (k : Inode × FileName) (i j : Inode) :
    linkCount (fs.names.set k i) j ≤ linkCount fs.names j + if i = j then 1 else 0 := by
  have hsum := InsertionMap.sum_values_set (fun k => if k = j then 1 else 0) fs.names k i
  unfold linkCount
  omega

/-- Bind a name to an inode, unless that is a directory with a name already. -/
def bindName (d : Inode) (n : FileName) (i : Inode) : FileSystem :=
  if h : i ≠ 0 ∧ (fs.kinds i = some .directory → fs.nlink i = 0) then
    { kinds := fs.kinds
      names := fs.names.set (d, n) i
      root_directory := fs.root_directory
      root_unnamed := by
        have hle := fs.nlink_set_le (d, n) i 0
        rw [if_neg h.1, fs.root_unnamed] at hle
        exact Nat.le_zero.mp hle
      directory_once := by
        intro j hj
        have hle := fs.nlink_set_le (d, n) i j
        split at hle
        · rename_i heq
          subst heq
          have hnone := h.2 hj
          unfold nlink at hnone
          omega
        · exact Nat.le_trans hle (fs.directory_once j hj) }
  else fs

/-- Change what an inode is; a directory has to be unnamed for it. -/
def setKind (i : Inode) (kind : Option FileKind) : FileSystem :=
  if h : i ≠ 0 ∧ (kind = some .directory → fs.nlink i = 0) then
    { kinds := Function.update fs.kinds i kind
      names := fs.names
      root_directory := by rw [Function.update_of_ne (Ne.symm h.1)]; exact fs.root_directory
      root_unnamed := fs.root_unnamed
      directory_once := by
        intro j hj
        by_cases heq : j = i
        · subst heq
          rw [Function.update_self] at hj
          exact Nat.le_trans (Nat.le_of_eq (h.2 hj)) (Nat.zero_le 1)
        · rw [Function.update_of_ne heq] at hj
          exact fs.directory_once j hj }
  else fs

/-- What other processes do to the file system, by the directory and the name it is done to. -/
inductive Change where
  | create (dir : FilePath) (name : FileName) (inode : Inode) (kind : FileKind)
  | link (existing : FilePath) (dir : FilePath) (name : FileName)
  | unlink (dir : FilePath) (name : FileName)
  | rename (dir : FilePath) (name : FileName) (dir' : FilePath) (name' : FileName)
  | write (inode : Inode) (content : List UInt8)
  /-- An inode without names is given back. -/
  | forget (inode : Inode)

/-- A change that cannot be made changes nothing. -/
def apply (change : Change) : FileSystem :=
  match change with
  | .create dir name inode kind =>
      match fs.walk dir with
      | some d =>
          if fs.kinds inode = none ∧ fs.nlink inode = 0 ∧ fs.child d name = none then
            (fs.setKind inode (some kind)).bindName d name inode
          else fs
      | none => fs
  | .link existing dir name =>
      match fs.walk existing, fs.walk dir with
      | some i, some d =>
          if fs.kinds i ≠ some .directory ∧ fs.child d name = none then fs.bindName d name i else fs
      | _, _ => fs
  | .unlink dir name =>
      match fs.walk dir with
      | some d => fs.unname d name
      | none => fs
  | .rename dir name dir' name' =>
      match fs.walk dir, fs.walk dir' with
      | some d, some d' =>
          match fs.child d name with
          | some i => (fs.unname d name).bindName d' name' i
          | none => fs
      | _, _ => fs
  | .write inode content =>
      match fs.kinds inode with
      | some (.regular _) => fs.setKind inode (some (.regular content))
      | _ => fs
  | .forget inode => if fs.nlink inode = 0 then fs.setKind inode none else fs

/-! ## Names and paths -/

section Walk

variable {fs : FileSystem}

theorem walk_concat (p : FilePath) (n : FileName) :
    fs.walk (p ++ [n]) = (fs.walk p).bind (fs.child · n) := by
  unfold walk
  rw [List.foldlM_append]
  cases p.foldlM fs.child 0 with
  | none => rfl
  | some d => simp

theorem child_eq_some {d i : Inode} {n : FileName} :
    fs.child d n = some i ↔ fs.kinds d = some .directory ∧ fs.names.get? (d, n) = some i := by
  unfold child
  split <;> simp_all

theorem one_le_nlink {k : Inode × FileName} {i : Inode} (h : fs.names.get? k = some i) :
    1 ≤ fs.nlink i := by
  have hsum := InsertionMap.sum_values_erase (fun j => if j = i then 1 else 0) fs.names k
  rw [h, Option.map_some, Option.getD_some, if_pos rfl] at hsum
  unfold nlink linkCount
  omega

/-- An inode with one name has that name only. -/
theorem eq_of_nlink_le_one {k k' : Inode × FileName} {i : Inode} (hk : fs.names.get? k = some i)
    (hk' : fs.names.get? k' = some i) (h : fs.nlink i ≤ 1) : k = k' := by
  by_contra hne
  have hsum := InsertionMap.sum_values_erase (fun j => if j = i then 1 else 0) fs.names k
  have hrest := InsertionMap.sum_values_erase (fun j => if j = i then 1 else 0)
    (fs.names.erase k) k'
  rw [hk, Option.map_some, Option.getD_some, if_pos rfl] at hsum
  rw [InsertionMap.get?_erase_of_ne _ hne, hk', Option.map_some, Option.getD_some, if_pos rfl] at hrest
  unfold nlink linkCount at h
  omega

theorem exists_name_of_walk {p : FilePath} {n : FileName} {i : Inode}
    (h : fs.walk (p ++ [n]) = some i) : ∃ d, fs.walk p = some d ∧
      fs.kinds d = some .directory ∧ fs.names.get? (d, n) = some i := by
  rw [walk_concat] at h
  obtain ⟨d, hd, hchild⟩ := Option.bind_eq_some_iff.mp h
  exact ⟨d, hd, child_eq_some.mp hchild⟩

theorem root_not_named {p : FilePath} {n : FileName} : fs.walk (p ++ [n]) ≠ some 0 := by
  intro h
  obtain ⟨d, -, -, hname⟩ := exists_name_of_walk h
  have hone := one_le_nlink hname
  have hnone : fs.nlink 0 = 0 := fs.root_unnamed
  omega

/-- An inode with one name has one path. -/
theorem walk_injective {p q : FilePath} {i : Inode} (hp : fs.walk p = some i)
    (hq : fs.walk q = some i) (h : fs.nlink i ≤ 1) : p = q := by
  induction p using List.reverseRecOn generalizing q i with
  | nil =>
      obtain rfl := Option.some.inj hp
      rcases List.eq_nil_or_concat' q with rfl | ⟨q, n, rfl⟩
      · rfl
      · exact absurd hq root_not_named
  | append_singleton p n ih =>
      rcases List.eq_nil_or_concat' q with rfl | ⟨q, m, rfl⟩
      · obtain rfl := Option.some.inj hq
        exact absurd hp root_not_named
      · obtain ⟨d, hd, hdir, hname⟩ := exists_name_of_walk hp
        obtain ⟨d', hd', -, hname'⟩ := exists_name_of_walk hq
        obtain ⟨rfl, rfl⟩ := Prod.mk.inj (eq_of_nlink_le_one hname hname' h)
        rw [ih hd hd' (fs.directory_once d hdir)]

end Walk

/-! ## Paths without symlinks -/

section Straight

variable {fs : FileSystem}

/-- No place on the path is a symlink; the last one counts only if `last` says so. -/
def Straight (fs : FileSystem) (last : Bool) (p : FilePath) : Prop :=
  ∀ q, q <+: p → (last = false → q ≠ p) →
    ∀ target, (fs.walk q).bind fs.kinds ≠ some (.symlink target)

instance (last : Bool) (p : FilePath) : Decidable (fs.Straight last p) :=
  decidable_of_iff (∀ q ∈ p.inits, (last = false → q ≠ p) →
    ((fs.walk q).bind fs.kinds).any FileKind.isSymlink = false) <| by
    unfold Straight
    refine forall_congr' fun q => ?_
    rw [List.mem_inits]
    refine imp_congr_right fun _ => imp_congr_right fun _ => ?_
    cases (fs.walk q).bind fs.kinds with
    | none => simp
    | some kind => cases kind <;> simp [FileKind.isSymlink]

theorem followWith_names {last : Bool}
    {again : FilePath → List PathComponent → Except Errno FilePath} {here names p : FilePath}
    (hstraight : ∀ q, q <+: names → (last = false → q ≠ names) →
      ∀ target, (fs.walk (here ++ q)).bind fs.kinds ≠ some (.symlink target))
    (h : fs.followWith last again here (names.map .name) = .ok p) : p = here ++ names := by
  induction names generalizing here with
  | nil => exact (Except.ok.inj h).symm.trans (List.append_nil here).symm
  | cons n rest ih =>
      rw [List.map_cons, followWith] at h
      have hhere : here ++ n :: rest = (here ++ [n]) ++ rest := by simp
      split at h
      · cases h
      · rename_i target hlink
        split at h
        · rename_i hlast
          rw [List.map_eq_nil_iff] at hlast
          rw [hlast.1]
          exact (Except.ok.inj h).symm
        · rename_i hlast
          refine absurd hlink (hstraight [n] ⟨rest, rfl⟩ (fun hfalse heq => hlast ⟨?_, hfalse⟩) target)
          rw [← (List.cons.inj heq).2]
          rfl
      · rw [hhere]
        refine ih (fun q hq hne target => ?_) h
        rw [List.append_assoc, List.singleton_append]
        exact hstraight (n :: q) (List.prefix_cons_inj n |>.mpr hq)
          (fun hfalse heq => hne hfalse (List.cons.inj heq).2) target
      · split at h
        · rename_i hrest
          rw [List.map_eq_nil_iff] at hrest
          rw [hrest]
          exact (Except.ok.inj h).symm
        · cases h

theorem followWith_dots {last : Bool}
    {again : FilePath → List PathComponent → Except Errno FilePath} {here : FilePath}
    {dots rest : List PathComponent} (h : ∀ c ∈ dots, c = .here) :
    fs.followWith last again here (dots ++ rest) = fs.followWith last again here rest := by
  induction dots with
  | nil => rfl
  | cons c dots ih =>
      rw [h c List.mem_cons_self, List.cons_append, followWith]
      exact ih fun c hc => h c (List.mem_cons_of_mem _ hc)

theorem locate_renderPath {last : Bool} {p q : FilePath} (hstraight : fs.Straight last p)
    (h : fs.locate last (renderPath p) = .ok q) : q = p := by
  obtain ⟨dots, hparse, hdots⟩ := parsePath_renderPath p
  unfold locate maxLinks at h
  rw [hparse, follow, List.cons_append, followWith, followWith_dots hdots] at h
  exact (followWith_names (fun q hq hne target => hstraight q hq hne target) h).trans
    (List.nil_append p)

/-- A file opened by a path without symlinks lies there. -/
theorem walk_of_openFile {noFollow : Bool} {p : FilePath} {i : Inode}
    (hstraight : fs.Straight (!noFollow) p) (h : fs.openFile noFollow (renderPath p) = .ok i) :
    fs.walk p = some i ∧ fs.kinds i ≠ none := by
  unfold openFile at h
  cases hlocate : fs.locate (!noFollow) (renderPath p) with
  | error e =>
      rw [hlocate] at h
      cases h
  | ok q =>
      obtain rfl := locate_renderPath hstraight hlocate
      rw [hlocate] at h
      dsimp only at h
      split at h
      · cases h
      · rename_i j hwalk
        split at h
        · cases h
        · cases h
        · rename_i hkind
          obtain rfl := Except.ok.inj h
          exact ⟨hwalk, by rw [hkind]; exact Option.some_ne_none _⟩

end Straight

/-! ## What a change leaves -/

section Changes

variable {fs : FileSystem}

@[simp] theorem kinds_unname (d : Inode) (n : FileName) : (fs.unname d n).kinds = fs.kinds := rfl

@[simp] theorem kinds_bindName (d : Inode) (n : FileName) (i : Inode) :
    (fs.bindName d n i).kinds = fs.kinds := by
  unfold bindName
  split <;> rfl

/-- Either nothing happens, or this one inode becomes what is asked for. -/
theorem kinds_setKind (i : Inode) (kind : Option FileKind) :
    (fs.setKind i kind).kinds = fs.kinds ∨
      (fs.setKind i kind).kinds = Function.update fs.kinds i kind := by
  unfold setKind
  split
  · exact .inr rfl
  · exact .inl rfl

/-- An inode that is there stays what it is, up to a file's content, unless it is given back. -/
theorem kinds_apply {change : Change} {i : Inode} (hthere : fs.kinds i ≠ none)
    (hkept : change ≠ .forget i) : (fs.apply change).kinds i = fs.kinds i ∨
      (∃ content, fs.kinds i = some (.regular content)) ∧
        ∃ content, (fs.apply change).kinds i = some (.regular content) := by
  have hother : ∀ {j : Inode} {kind : Option FileKind}, j ≠ i →
      (fs.setKind j kind).kinds i = fs.kinds i := by
    intro j kind hne
    rcases fs.kinds_setKind j kind with heq | heq
    · rw [heq]
    · rw [heq, Function.update_of_ne (Ne.symm hne)]
  cases change with
  | create dir name inode kind =>
      left
      unfold apply
      dsimp only
      split
      · split
        · rename_i hfree
          rw [kinds_bindName]
          refine hother fun heq => hthere (heq ▸ hfree.1)
        · rfl
      · rfl
  | link existing dir name =>
      left
      unfold apply
      dsimp only
      split
      · split
        · rw [kinds_bindName]
        · rfl
      · rfl
  | unlink dir name =>
      left
      unfold apply
      dsimp only
      split <;> rfl
  | rename dir name dir' name' =>
      left
      unfold apply
      dsimp only
      split
      · split
        · rw [kinds_bindName, kinds_unname]
        · rfl
      · rfl
  | write inode content =>
      unfold apply
      dsimp only
      split
      · rename_i old hold
        by_cases heq : inode = i
        · subst heq
          rcases fs.kinds_setKind inode (some (.regular content)) with hsame | hnew
          · exact .inl (by rw [hsame])
          · exact .inr ⟨⟨old, hold⟩, content, by rw [hnew, Function.update_self]⟩
        · exact .inl (hother heq)
      · exact .inl rfl
  | forget inode =>
      left
      unfold apply
      dsimp only
      split
      · exact hother fun heq => hkept (by rw [heq])
      · rfl

end Changes

end FileSystem

end VicoopBridge.Library
