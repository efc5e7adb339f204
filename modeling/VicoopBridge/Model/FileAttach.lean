import Mathlib.Data.Rat.Defs
import VicoopBridge.Library.FileSystem

/-! # Reading a file for the caller

The agent names a file, the operator the roots it may lie under. `readWithRoots` is cut at its calls of
the file system; what others do to the file system comes in between. Paths are those of a POSIX
system. -/

namespace VicoopBridge

open Library

inductive SafeReadErrorCode where
  | invalidPath
  | outsideRoots
  | notFound
  | symlink
  | notFile
  | hardlink
  | tooLarge
  deriving DecidableEq

structure SafeReadError where
  code : SafeReadErrorCode
  message : String
  deriving DecidableEq

inductive ReadFailure where
  | safe (error : SafeReadError)
  /-- A `RangeError`. -/
  | range (message : String)
  /-- What a call of the file system threw. -/
  | system (error : Errno)
  deriving DecidableEq

structure SafeReadResult where
  buffer : List UInt8
  realPath : PathText
  size : ℕ
  deriving DecidableEq

/-! ## Paths -/

def ensureTrailingSep (p : PathText) : PathText :=
  if p.getLast? = some '/' then p else p ++ ['/']

def isPathInside (rootWithSep candidate : PathText) : Bool :=
  candidate = rootWithSep.dropLast || rootWithSep.isPrefixOf candidate

/-- `path.resolve(base, p)`. -/
def resolvePath (base p : PathText) : PathText :=
  renderPath (normalizePath
    (if isAbsolutePath p then parsePath p else parsePath base ++ parsePath p))

/-! ## A read -/

/-- The roots of a single read are resolved for it. A reader that is kept has resolved them before. -/
inductive RootSource where
  | allowed (roots : List PathText)
  | cached (first : FilePath) (rest : List FilePath)

structure ReadParams where
  filePath : PathText
  /-- None when it is not finite. -/
  maxBytes : Option ℚ
  /-- The number as the messages show it. -/
  maxBytesText : String
  roots : RootSource
  cwd : PathText
  supportsNofollow : Bool

inductive ReadPhase where
  | rooting (rest : List PathText)
  | resolving
  | locating (realPath : FilePath)
  | opening (realPath : FilePath) (lstat : Inode)
  | checking (realPath : FilePath) (lstat handle : Inode)
  | reading (realPath : FilePath) (handle : Inode) (claimedSize : ℕ) (read : List UInt8)
  | done (outcome : Except ReadFailure SafeReadResult)
  deriving DecidableEq

/-- `opened` and `contents` only record: the file system as the file was opened, with the inode, and
what the file held at each read. -/
structure FileRead where
  params : ReadParams
  fs : FileSystem
  phase : ReadPhase
  canonicalRoots : List PathText := []
  opened : Option (FileSystem × Inode) := none
  contents : List (List UInt8) := []

/-- What the system answers. `failed` is any error a call can come back with. -/
inductive ReadAction where
  | call
  | failed (error : Errno)
  | read (bytesRead : ℕ)
  | change (change : FileSystem.Change)

namespace FileRead

variable (x : FileRead)

def fail (code : SafeReadErrorCode) (message : String) : FileRead :=
  { x with phase := .done (.error (.safe ⟨code, message⟩)) }

def threw (error : Errno) : FileRead := { x with phase := .done (.error (.system error)) }

def text (p : PathText) : String := String.ofList p

def realText (p : FilePath) : String := text (renderPath p)

/-- `resolveCanonicalRoots`, from its loop on. -/
def resolveRoots (rest : List PathText) : FileRead :=
  match rest with
  | _ :: _ => { x with phase := .rooting rest }
  | [] =>
      if x.canonicalRoots = [] then x.fail .outsideRoots "no allowed roots resolvable on disk"
      else { x with phase := .resolving }

/-- The root is dropped if it cannot be resolved. -/
def onRoot (rest : List PathText) (real : Except Errno FilePath) : FileRead :=
  match real with
  | .ok real =>
      { x with canonicalRoots := x.canonicalRoots ++ [ensureTrailingSep (renderPath real)]
        }.resolveRoots rest
  | .error _ => x.resolveRoots rest

def candidate : PathText :=
  if isAbsolutePath x.params.filePath then x.params.filePath
  else resolvePath (x.canonicalRoots.headD []) x.params.filePath

def onRealpath (result : Except Errno FilePath) : FileRead :=
  match result with
  | .error .noEntry => x.fail .notFound ("file not found: " ++ text x.params.filePath)
  | .error e => x.threw e
  | .ok realPath =>
      if x.canonicalRoots.any fun r => isPathInside r (renderPath realPath) then
        { x with phase := .locating realPath }
      else
        x.fail .outsideRoots ("resolved path is outside allowed roots: " ++ realText realPath)

def onLstat (realPath : FilePath) (lstat : Inode) : FileRead :=
  match x.fs.kinds lstat with
  | some (.symlink _) => x.fail .symlink ("path is a symlink: " ++ realText realPath)
  | some (.regular _) => { x with phase := .opening realPath lstat }
  | _ => x.fail .notFile ("path is not a regular file: " ++ realText realPath)

def onOpen (realPath : FilePath) (lstat handle : Inode) : FileRead :=
  { x with opened := some (x.fs, handle), phase := .checking realPath lstat handle }

def onStat (realPath : FilePath) (lstat handle : Inode) : FileRead :=
  match x.fs.kinds handle with
  | some (.regular content) =>
      let size := content.length
      let nlink := x.fs.nlink handle
      if handle ≠ lstat then
        x.fail .symlink ("path identity changed between stat and open (possible symlink swap): " ++
          realText realPath)
      else if nlink > 1 then
        x.fail .hardlink ("hardlinked file refused (nlink=" ++ toString nlink ++ "): " ++
          realText realPath)
      else if x.params.maxBytes.any fun cap => (size : ℚ) > cap then
        x.fail .tooLarge ("file exceeds maxBytes (" ++ toString size ++ " > " ++
          x.params.maxBytesText ++ "): " ++ realText realPath)
      else { x with phase := .reading realPath handle size [] }
  | _ => x.fail .notFile ("opened path is not a regular file: " ++ realText realPath)

/-- After the loop of reads. -/
def onReadAll (realPath : FilePath) (claimedSize : ℕ) (read : List UInt8) : FileRead :=
  if read.length > claimedSize then
    x.fail .tooLarge ("file grew between stat and read (claimed " ++ toString claimedSize ++
      ", read at least " ++ toString read.length ++ "): " ++ realText realPath)
  else
    { x with phase := .done (.ok
        { buffer := read, realPath := renderPath realPath, size := read.length }) }

/-- One read into the buffer, which has room for one byte more than the file claimed to have. It may
come back with fewer bytes than asked for, and with none only at the end of the file. -/
def onRead (realPath : FilePath) (handle : Inode) (claimedSize : ℕ) (read : List UInt8)
    (bytesRead : ℕ) : Option FileRead :=
  match x.fs.kinds handle with
  | some (.regular content) =>
      if bytesRead ≤ claimedSize + 1 - read.length ∧ bytesRead ≤ content.length - read.length ∧
          (bytesRead = 0 → content.length ≤ read.length) then
        let x := { x with contents := x.contents ++ [content] }
        let next := read ++ (content.drop read.length).take bytesRead
        if bytesRead = 0 ∨ claimedSize + 1 ≤ next.length then
          some (x.onReadAll realPath claimedSize next)
        else some { x with phase := .reading realPath handle claimedSize next }
      else none
  | _ => none

/-! ## Steps -/

def onCall : Option FileRead :=
  match x.phase with
  | .rooting (root :: rest) =>
      some (x.onRoot rest (x.fs.realpath (resolvePath x.params.cwd root)))
  | .resolving => some (x.onRealpath (x.fs.realpath x.candidate))
  | .locating realPath =>
      match x.fs.lstat (renderPath realPath) with
      | .error e => some (x.threw e)
      | .ok i => some (x.onLstat realPath i)
  | .opening realPath lstat =>
      match x.fs.openFile x.params.supportsNofollow (renderPath realPath) with
      | .error e => some (x.threw e)
      | .ok handle => some (x.onOpen realPath lstat handle)
  | .checking realPath lstat handle => some (x.onStat realPath lstat handle)
  | _ => none

def onFailed (error : Errno) : Option FileRead :=
  match x.phase with
  | .rooting (_ :: rest) => some (x.onRoot rest (.error error))
  | .resolving => some (x.onRealpath (.error error))
  | .locating _ | .opening .. | .checking .. | .reading .. => some (x.threw error)
  | _ => none

def perform : ReadAction → Option FileRead
  | .call => x.onCall
  | .failed error => x.onFailed error
  | .read bytesRead =>
      match x.phase with
      | .reading realPath handle claimedSize read =>
          x.onRead realPath handle claimedSize read bytesRead
      | _ => none
  | .change change => some { x with fs := x.fs.apply change }

/-- The inode the read has open. -/
def handle? : Option Inode :=
  match x.phase with
  | .checking _ _ handle | .reading _ handle _ _ => some handle
  | _ => none

/-- An open inode is not given back. -/
def Allows : ReadAction → Prop
  | .change (.forget i) => x.handle? ≠ some i
  | _ => True

end FileRead

/-- `assertMaxBytes`, and what `readWithRoots` does before its first call. -/
def readBoundedFileWithinRoots (params : ReadParams) (fs : FileSystem) : FileRead :=
  let x : FileRead := { params := params, fs := fs, phase := .resolving }
  if params.maxBytes.any (0 ≤ ·) = false then
    { x with phase := .done (.error (.range
      ("maxBytes must be a finite non-negative number (got " ++ params.maxBytesText ++ ")"))) }
  else if params.filePath = [] then x.fail .invalidPath "empty path"
  else if '\x00' ∈ params.filePath then x.fail .invalidPath "path contains NUL"
  else
    match params.roots with
    | .allowed [] => x.fail .outsideRoots "no allowed roots configured"
    | .allowed roots => x.resolveRoots roots
    | .cached first rest =>
        { x with canonicalRoots := (first :: rest).map fun r => ensureTrailingSep (renderPath r) }

end VicoopBridge
