import Mathlib.Data.List.SplitOn
import VicoopBridge.Library.CrashProgram
import VicoopBridge.Library.InsertionMap

/-! # The storage pool

A pool is a catalog and the image files it speaks of. `runStorageManager` serves one request, call by
call of the database, the file system and the Linux tools; a call may fail, and may have done its work
all the same. Modes, the options of the tools and the path of the mount are left out. -/

namespace VicoopBridge

open Library

/-! ## Requests -/

inductive StorageAction where
  | create
  | probe
  | attach
  | check
  | delete
  deriving DecidableEq

structure StorageRequest where
  action : StorageAction
  key : String
  uuid : String
  size : ℕ
  budget : ℕ
  reserve : ℕ
  deriving DecidableEq

def StorageAction.parse : String → Option StorageAction
  | "create" => some .create
  | "probe" => some .probe
  | "attach" => some .attach
  | "check" => some .check
  | "delete" => some .delete
  | _ => none

def isLowerHex (c : Char) : Bool := ('a' ≤ c && c ≤ 'f') || ('0' ≤ c && c ≤ '9')

def isStorageKey (key : String) : Bool := key.toList.length = 64 && key.toList.all isLowerHex

def isStorageUuid (uuid : String) : Bool :=
  let groups := uuid.toList.splitOn '-'
  groups.map List.length = [8, 4, 4, 4, 12] && groups.all fun group => group.all isLowerHex

/-- The number a text of digits stands for. -/
def parseCapacity (text : String) : Option ℕ :=
  if text.toList ≠ [] ∧ text.toList.all Char.isDigit then
    some (text.toList.foldl (fun n c => 10 * n + (c.toNat - '0'.toNat)) 0)
  else none

def maxSafeInteger : ℕ := 9007199254740991

def mebibyte : ℕ := 1048576

def parseStorageRequest (args : List String) : Except String StorageRequest :=
  match args with
  | [actionText, key, uuid, sizeText, budgetText, reserveText] =>
      match StorageAction.parse actionText with
      | none => .error "invalid action"
      | some action =>
          if ¬ isStorageKey key then .error "invalid storage key"
          else if ¬ isStorageUuid uuid then .error "invalid UUID"
          else
            match parseCapacity sizeText, parseCapacity budgetText, parseCapacity reserveText with
            | some size, some budget, some reserve =>
                if size ≤ maxSafeInteger ∧ budget ≤ maxSafeInteger ∧ reserve ≤ maxSafeInteger ∧
                    64 * mebibyte ≤ size ∧ size ≤ 65536 * mebibyte ∧ size ≤ budget then
                  .ok
                    { action := action, key := key, uuid := uuid, size := size, budget := budget
                      reserve := reserve }
                else .error "invalid capacity"
            | _, _, _ => .error "invalid capacity"
  | _ => .error "invalid action"

/-! ## The pool -/

structure PoolPolicy where
  budget : ℕ
  reserve : ℕ
  deriving DecidableEq

inductive RowState where
  | allocating
  | ready
  deriving DecidableEq

structure ImageRow where
  uuid : String
  size : ℕ
  state : RowState
  deriving DecidableEq

/-- `filesystem` is the UUID the image was formatted with; `made` and `owned` are the directories made
and handed over in it since. -/
structure ImageFile where
  size : ℕ := 0
  filesystem : Option String := none
  made : List String := []
  owned : List String := []
  deriving DecidableEq

/-- `loops` says which key's image a device is attached to, `mounts` whose image is mounted, the last
mount first. -/
structure Pool where
  policy : Option PoolPolicy := none
  rows : InsertionMap String ImageRow := .empty
  images : InsertionMap String ImageFile := .empty
  loops : InsertionMap String String := .empty
  mounts : List String := []
  aliases : InsertionMap String String := .empty

structure ImageStat where
  isFile : Bool
  size : ℕ
  blocks : ℕ

inductive BlkidTag where
  | uuid
  | type

/-- A call. Files and rows of an image are named by its key, an alias by its UUID. -/
inductive PoolOp where
  | makePool
  | poolIsSymlink
  | openDatabase
  | createTables
  | selectPolicy
  | selectRow (key : String)
  | insertPolicy (policy : PoolPolicy)
  | sumSizes
  | insertRow (key : String) (row : ImageRow)
  | setReady (key : String)
  | deleteRow (key : String)
  | closeDatabase
  | imageIsSymlink (key : String)
  | existsImage (key : String)
  | createImage (key : String)
  | fallocate (key : String) (size : ℕ)
  | fsyncImage (key : String)
  | closeImage (key : String)
  | syncImage (key : String)
  | statImage (key : String)
  | unlinkImage (key : String)
  | mkfs (key uuid : String)
  | syncRoot
  | freeSpace
  | makeMount
  | losetup (key : String)
  | mountLoop (loop : String)
  | mkdir (directory : String)
  | chown (directory : String)
  | writeProbe
  | syncProbe
  | readProbe
  | unlinkProbe
  | syncMount
  | umount
  | detachLoop (loop : String)
  | loopsOf (key : String)
  | blkidImage (tag : BlkidTag) (key : String)
  | blkidLoop (loop : String)
  | makeAliases
  | symlinkAlias (uuid target : String)
  | readAlias (uuid : String)
  | unlinkAlias (uuid : String)
  | sleep

namespace PoolOp

/-- What a call gives when it succeeds. `freeSpace` is the product of available blocks and block size. -/
abbrev Value : PoolOp → Type
  | selectPolicy => Option PoolPolicy
  | selectRow _ => Option ImageRow
  | sumSizes | freeSpace => ℕ
  | poolIsSymlink | imageIsSymlink _ | existsImage _ => Bool
  | statImage _ => ImageStat
  | losetup _ | readProbe | blkidImage .. | blkidLoop _ | readAlias _ => String
  | loopsOf _ => List String
  | _ => Unit

end PoolOp

inductive IoError where
  | noEntry
  | alreadyExists
  | other (message : String)
  deriving DecidableEq

abbrev PoolOp.Answer (op : PoolOp) : Type := Except IoError op.Value

namespace Pool

variable (s : Pool)

def modifyImage (key : String) (f : ImageFile → ImageFile) : Pool :=
  match s.images.get? key with
  | some image => { s with images := s.images.set key (f image) }
  | none => s

/-- What is written under the mount goes to what was mounted last. -/
def modifyMounted (f : ImageFile → ImageFile) : Pool :=
  match s.mounts with
  | key :: _ => s.modifyImage key f
  | [] => s

def sizes : ℕ := (s.rows.values.map (·.size)).sum

/-- What a call does. -/
def effect : (op : PoolOp) → op.Value → Pool
  | .insertPolicy policy, _ => { s with policy := s.policy.or (some policy) }
  | .insertRow key row, _ => { s with rows := s.rows.set key row }
  | .setReady key, _ =>
      match s.rows.get? key with
      | some row => { s with rows := s.rows.set key { row with state := .ready } }
      | none => s
  | .deleteRow key, _ => { s with rows := s.rows.erase key }
  | .createImage key, _ => { s with images := s.images.set key {} }
  | .fallocate key size, _ => s.modifyImage key fun image => { image with size := size }
  | .unlinkImage key, _ => { s with images := s.images.erase key }
  | .mkfs key uuid, _ =>
      s.modifyImage key fun image => { size := image.size, filesystem := some uuid }
  | .losetup key, loop => { s with loops := s.loops.set loop key }
  | .mountLoop loop, _ =>
      match s.loops.get? loop with
      | some key => { s with mounts := key :: s.mounts }
      | none => s
  | .mkdir directory, _ =>
      s.modifyMounted fun image => { image with made := image.made ++ [directory] }
  | .chown directory, _ =>
      s.modifyMounted fun image => { image with owned := image.owned ++ [directory] }
  | .umount, _ => { s with mounts := s.mounts.tail }
  | .detachLoop loop, _ => { s with loops := s.loops.erase loop }
  | .symlinkAlias uuid target, _ => { s with aliases := s.aliases.set uuid target }
  | .unlinkAlias uuid, _ => { s with aliases := s.aliases.erase uuid }
  | _, _ => s

/-- When a call can succeed, and with what. -/
def Succeeds : (op : PoolOp) → op.Value → Prop
  | .selectPolicy, policy => policy = s.policy
  | .selectRow key, row => row = s.rows.get? key
  | .sumSizes, used => used = s.sizes
  | .insertRow key row, _ =>
      s.rows.get? key = none ∧ ∀ key' row', s.rows.get? key' = some row' → row'.uuid ≠ row.uuid
  | .existsImage key, found => found = s.images.has key
  | .createImage key, _ => s.images.get? key = none
  | .fallocate key _, _ | .mkfs key _, _ | .unlinkImage key, _ => s.images.has key = true
  | .statImage key, stat =>
      ∃ image, s.images.get? key = some image ∧ stat.isFile = true ∧ stat.size = image.size
  | .losetup key, loop => s.images.has key = true ∧
      (s.loops.get? loop = none ∨ s.loops.get? loop = some key)
  | .mountLoop loop, _ => s.loops.has loop = true
  | .loopsOf key, lines => ∀ line ∈ lines,
      s.loops.get? (String.ofList (line.toList.takeWhile (· ≠ ':'))) = some key
  | .symlinkAlias uuid _, _ => s.aliases.get? uuid = none
  | .readAlias uuid, target => s.aliases.get? uuid = some target
  | _, _ => True

/-- A call that fails may have done its work before. -/
def Calls (op : PoolOp) (s : Pool) : op.Answer → Pool → Prop
  | .ok value, s' => s.Succeeds op value ∧ s' = s.effect op value
  | .error _, s' => s' = s ∨ ∃ value, s.Succeeds op value ∧ s' = s.effect op value

end Pool

/-! ## The manager -/

inductive StorageError where
  | state (message : String)
  | io (error : IoError)
  deriving DecidableEq

abbrev StorageProgram (α : Type) := Program PoolOp PoolOp.Answer StorageError α

namespace StorageProgram

def call (op : PoolOp) : StorageProgram op.Value :=
  Program.call op fun answer =>
    match answer with
    | .ok value => .done (.ok value)
    | .error e => .done (.error (.io e))

/-- The call with its failure as a value. -/
def attempt (op : PoolOp) : StorageProgram op.Answer :=
  Program.call op fun answer => .done (.ok answer)

end StorageProgram

open StorageProgram

def requireState (condition : Bool) (message : String) : StorageProgram Unit :=
  if condition then pure () else Program.throw (.state message)

/-- `loopN` in one of the two spellings, as `/dev/loopN`. -/
def loopTarget? (target : String) : Option String :=
  let device (digits : List Char) : Option String :=
    if digits ≠ [] ∧ digits.all Char.isDigit then
      some (String.ofList ("/dev/loop".toList ++ digits))
    else none
  if "/dev/loop".toList.isPrefixOf target.toList then device (target.toList.drop 9)
  else if "../../loop".toList.isPrefixOf target.toList then device (target.toList.drop 10)
  else none

def ensureStorageAlias (uuid loop : String) : ℕ → StorageProgram Unit
  | 0 => Program.throw (.state "UUID alias did not stabilize; retry attachment")
  | attempts + 1 => do
      let linked ← attempt (.symlinkAlias uuid loop)
      match linked with
      | .ok _ => pure ()
      | .error .alreadyExists => do
          let read ← attempt (.readAlias uuid)
          match read with
          | .ok target => do
              requireState (loopTarget? target).isSome "unexpected UUID alias target"
              if loopTarget? target = some loop then pure ()
              else do
                -- A stale link is not authority to detach a device.
                let removed ← attempt (.unlinkAlias uuid)
                match removed with
                | .ok _ | .error .noEntry => do
                    call .sleep
                    ensureStorageAlias uuid loop attempts
                | .error e => Program.throw (.io e)
          | .error .noEntry => do
              call .sleep
              ensureStorageAlias uuid loop attempts
          | .error e => Program.throw (.io e)
      | .error e => Program.throw (.io e)

def prepareStoragePool : StorageProgram Unit := do
  call .makePool
  let symlink ← call .poolIsSymlink
  requireState (!symlink) "symlink pool directory"

def storageDirectories : List String := ["workspace", "sessions", "sessions/config"]

def makeDirectories : List String → StorageProgram Unit
  | [] => pure ()
  | directory :: rest => do
      call (.mkdir directory)
      call (.chown directory)
      makeDirectories rest

def probeMount : StorageProgram Unit := do
  call .writeProbe
  call .syncProbe
  let text ← call .readProbe
  requireState (text = "vicoop-storage-probe") "storage probe readback failed"
  call .unlinkProbe

/-- What is done while the new image is mounted. -/
def populate (request : StorageRequest) : StorageProgram Unit := do
  makeDirectories storageDirectories
  if request.action = .probe then probeMount else pure ()
  call .syncMount

/-- From the catalog's word to the image that is ready. -/
def allocate (request : StorageRequest) : StorageProgram Unit := do
  let found ← call (.existsImage request.key)
  requireState (!found) "unrecorded image; inspect pool"
  let used ← call .sumSizes
  let space ← call .freeSpace
  requireState (used + request.size ≤ request.budget) "pool capacity exhausted"
  requireState (request.size + request.reserve ≤ space) "pool free-space reserve would be exhausted"
  call (.insertRow request.key { uuid := request.uuid, size := request.size, state := .allocating })
  call (.createImage request.key)
  Program.tryFinally
    (do
      call (.fallocate request.key request.size)
      call (.fsyncImage request.key))
    (call (.closeImage request.key))
  call .syncRoot
  call (.mkfs request.key request.uuid)
  call .makeMount
  let loop ← call (.losetup request.key)
  Program.tryFinally
    (do
      call (.mountLoop loop)
      Program.tryFinally (populate request) (call .umount))
    (call (.detachLoop loop))
  call (.syncImage request.key)
  let stat ← call (.statImage request.key)
  requireState (request.size ≤ stat.blocks * 512) "backing filesystem did not retain allocation"
  call (.setReady request.key)

/-- Wait for a detached device to be gone. -/
def awaitDetached (key : String) : ℕ → StorageProgram Unit
  | 0 => pure ()
  | attempts + 1 => do
      let lines ← call (.loopsOf key)
      if lines = [] then pure ()
      else do
        call .sleep
        awaitDetached key attempts

def detachLoops (key : String) : List String → StorageProgram Unit
  | [] => pure ()
  | line :: rest => do
      call (.detachLoop (String.ofList (line.toList.takeWhile (· ≠ ':'))))
      awaitDetached key 50
      let lines ← call (.loopsOf key)
      requireState (lines = []) "image still attached; deletion refused"
      detachLoops key rest

def checkAlias (uuid : String) : StorageProgram Unit := do
  let read ← attempt (.readAlias uuid)
  match read with
  | .ok target => requireState (loopTarget? target).isSome "unexpected UUID alias target"
  | .error .noEntry => pure ()
  | .error e => Program.throw (.io e)

def removeAlias (uuid : String) : StorageProgram Unit := do
  let removed ← attempt (.unlinkAlias uuid)
  match removed with
  | .ok _ | .error .noEntry => pure ()
  | .error e => Program.throw (.io e)

def removeImage (request : StorageRequest) : StorageProgram Unit := do
  checkAlias request.uuid
  let lines ← call (.loopsOf request.key)
  detachLoops request.key lines
  removeAlias request.uuid
  call (.unlinkImage request.key)
  call .syncRoot

structure StorageAttachment where
  uuid : String
  bytes : ℕ
  deriving DecidableEq

def deleteImage (request : StorageRequest) : StorageProgram (Option StorageAttachment) := do
  let found ← call (.existsImage request.key)
  if found then removeImage request else pure ()
  call (.deleteRow request.key)
  pure none

/-- The last part of every request but a deletion. `state` is the one of the row. -/
def attachImage (request : StorageRequest) (state : RowState) :
    StorageProgram (Option StorageAttachment) := do
  requireState (state = .ready) "incomplete allocation; explicitly remove scope before retrying"
  let found ← call (.existsImage request.key)
  requireState found "retained image missing, resized or no longer allocated"
  let stat ← call (.statImage request.key)
  requireState (stat.isFile && stat.size = request.size && request.size ≤ stat.blocks * 512)
    "retained image missing, resized or no longer allocated"
  let uuid ← call (.blkidImage .uuid request.key)
  requireState (uuid = request.uuid) "filesystem UUID mismatch"
  let type ← call (.blkidImage .type request.key)
  requireState (type = "ext4") "filesystem type mismatch"
  if request.action = .check then pure none
  else do
    let loop ← call (.losetup request.key)
    let attached ← call (.blkidLoop loop)
    requireState (attached = request.uuid) "attached device UUID mismatch"
    call .makeAliases
    ensureStorageAlias request.uuid loop 50
    pure (some { uuid := request.uuid, bytes := request.size })

/-- The state of the row the request goes on with: the retained one, or the one just made. -/
def admitRow (request : StorageRequest) (row : Option ImageRow) : StorageProgram RowState :=
  match row with
  | some row => do
      requireState (row.uuid = request.uuid && row.size = request.size)
        "retained storage identity/capacity mismatch"
      pure row.state
  | none =>
      if request.action = .create ∨ request.action = .probe then do
        allocate request
        pure .ready
      else Program.throw (.state "retained storage catalog entry missing")

def checkPolicy (request : StorageRequest) (policy : Option PoolPolicy) : StorageProgram Unit :=
  match policy with
  | none => call (.insertPolicy { budget := request.budget, reserve := request.reserve })
  | some policy =>
      requireState (policy.budget = request.budget && policy.reserve = request.reserve)
        "pool policy differs from existing catalog"

/-- A request with the catalog open. -/
def serveRequest (request : StorageRequest) : StorageProgram (Option StorageAttachment) := do
  call .createTables
  let policy ← call .selectPolicy
  let row ← call (.selectRow request.key)
  let symlink ← call (.imageIsSymlink request.key)
  requireState (!symlink) "symlink image"
  if request.action = .delete ∧ row = none then do
    let found ← call (.existsImage request.key)
    requireState (!found) "unrecorded image; inspect pool"
    pure none
  else do
    checkPolicy request policy
    call .syncRoot
    let state ← admitRow request row
    if request.action = .delete then deleteImage request else attachImage request state

def runStorageManager (request : StorageRequest) : StorageProgram (Option StorageAttachment) := do
  prepareStoragePool
  call .openDatabase
  Program.tryFinally (serveRequest request) (call .closeDatabase)

end VicoopBridge
