import FusionMultiNodes.Lib.Dict
import FusionMultiNodes.Lib.Machine
import FusionMultiNodes.Lib.Utf8
import Mathlib.Algebra.Order.Ring.Rat
import Mathlib.Data.List.Sort

/-! Storage volumes: files in a directory, their size limit and the eviction of the least
recently used. What the file system does is given to each call. -/
namespace FusionMultiNodes

structure VolumeSpec where
  name : String
  path : String := ""
  sizeLimitMb : ℤ := 0

structure VolumeInfo where
  name : String
  spec : VolumeSpec
  usedBytes : ℕ := 0
  fileCount : ℕ := 0
  createdAt : ℚ := 0
  lastAccessed : ℚ := 0

structure FileEntry where
  path : String
  volumeName : String
  sizeBytes : ℕ
  lastAccessed : ℚ
  createdAt : ℚ := 0

structure StorageVolume where
  baseDir : String
  volumes : Dict String VolumeInfo := ∅
  fileEntries : Dict String (Dict String FileEntry) := ∅

/-- How writing a file raises: before the file is opened, or with a part of it written. -/
inductive WriteFault
  | notOpened
  | torn (kept : Bytes)
  deriving DecidableEq

/-- The bytes a volume may hold; it is unlimited unless this is positive. -/
def VolumeSpec.limitBytes (spec : VolumeSpec) : ℤ := spec.sizeLimitMb*1024*1024

/-- Round to the 53 significant bits of a float, ties to even. -/
def roundSignificand (n : ℕ) : ℕ :=
  let k := n.log2-52
  let q := n/2^k
  let r := n%2^k
  if 2^k < 2*r ∨ (2*r = 2^k ∧ q%2 = 1) then (q+1)*2^k else q*2^k

/-- `int(limit_bytes * EVICTION_LOW_WATERMARK)`. The watermark is 0.7 as a float, which is
6305039478318694 / 2^53. -/
def lowWatermark (limitBytes : ℤ) : ℤ :=
  let float := roundSignificand limitBytes.natAbs
  let target : ℕ := roundSignificand (float*6305039478318694)/2^53
  limitBytes.sign*target

example : lowWatermark (10*1024*1024) = 7*1024*1024 := by decide

def joinPath (a b : String) : String :=
  if b.startsWith "/" then b else if a = "" ∨ a.endsWith "/" then a++b else a++"/"++b

namespace StorageVolume

variable (v : StorageVolume)

def tracked (volumeName : String) : Dict String FileEntry :=
  (v.fileEntries.get? volumeName).getD ∅

def resolvePath (name : String) (spec : VolumeSpec) : String :=
  if spec.path ≠ "" then spec.path else joinPath v.baseDir name

/-- The entries `_evict_lru` goes through, the least recently used first. -/
def sortedEntries (volumeName : String) : List (String × FileEntry) :=
  (v.tracked volumeName).entries.insertionSort fun a b => a.2.lastAccessed ≤ b.2.lastAccessed

end StorageVolume

/-- The volumes with the files of the file system. A file is any `F`; `locate root path` is
the one that `path` names in the directory `root`. -/
structure VolumeStore (F : Type) extends StorageVolume where
  disk : Dict F Bytes

namespace VolumeStore

variable {F : Type} [DecidableEq F] (locate : String → String → F)

def fileOf (s : VolumeStore F) (info : VolumeInfo) (volumeName filePath : String) : F :=
  locate (s.resolvePath volumeName info.spec) filePath

def setInfo (s : VolumeStore F) (volumeName : String) (info : VolumeInfo) : VolumeStore F :=
  { s with volumes := s.volumes.set volumeName info }

/-- Change the dictionary of a volume's entries, if there is one. -/
def modifyEntries (s : VolumeStore F) (volumeName : String)
    (f : Dict String FileEntry → Dict String FileEntry) : VolumeStore F :=
  { s with fileEntries := s.fileEntries.modify volumeName f }

def createVolume (s : VolumeStore F) (spec : VolumeSpec) (made : Bool) (now : ℚ) :
    VolumeStore F × Bool :=
  if made then
    ({ s with
      volumes := s.volumes.set spec.name
        { name := spec.name, spec := spec, createdAt := now, lastAccessed := now }
      fileEntries := s.fileEntries.set spec.name ∅ },true)
  else (s,false)

/-- `removed` are the files that go with the directory; removing it may raise half-way. -/
def deleteVolume (s : VolumeStore F) (name : String) (removed : F → Bool) (raises : Bool) :
    VolumeStore F × Bool :=
  match s.volumes.get? name with
  | none => (s,false)
  | some _ =>
    let disk := s.disk.filter fun file _ => !removed file
    if raises then ({ s with disk := disk },false)
    else
      ({ s with
        volumes := s.volumes.erase name
        fileEntries := s.fileEntries.erase name
        disk := disk },true)

/-- `fails` are the files on which some call of the file system raises. -/
def deleteFile (s : VolumeStore F) (volumeName filePath : String) (fails : F → Bool) :
    VolumeStore F × Bool :=
  match s.volumes.get? volumeName with
  | none => (s,false)
  | some info =>
    let file := s.fileOf locate info volumeName filePath
    if fails file then (s,false)
    else
      match s.disk.get? file with
      | some data =>
        let removed := { s with disk := s.disk.erase file }
        let info := { info with
          usedBytes := info.usedBytes-data.length
          fileCount := info.fileCount-1 }
        ((removed.setInfo volumeName info).modifyEntries volumeName (·.erase filePath),true)
      | none => (s.modifyEntries volumeName (·.erase filePath),true)

def usedBytes (s : VolumeStore F) (volumeName : String) : ℕ :=
  ((s.volumes.get? volumeName).map VolumeInfo.usedBytes).getD 0

/-- The loop of `_evict_lru`, with the number of files it evicted. -/
def evictLoop (volumeName : String) (target : ℤ) (fails : F → Bool) :
    VolumeStore F → List String → VolumeStore F × ℕ
  | s, [] => (s,0)
  | s, filePath::rest =>
    if s.usedBytes volumeName ≤ target then (s,0)
    else
      let deleted := s.deleteFile locate volumeName filePath fails
      let r := evictLoop volumeName target fails deleted.1 rest
      (r.1,r.2+deleted.2.toNat)

/-- `_evict_lru`, which does not look at the bytes that are needed. -/
def evictLru (s : VolumeStore F) (volumeName : String) (_neededBytes : ℕ) (fails : F → Bool) :
    VolumeStore F × Bool :=
  match s.volumes.get? volumeName with
  | none => (s,false)
  | some info =>
    let target := lowWatermark info.spec.limitBytes
    let r := s.evictLoop locate volumeName target fails ((s.sortedEntries volumeName).map Prod.fst)
    (r.1,decide (0 < r.2))

/-- The bytes that are used and those of `data` go over the limit. -/
def Full (s : VolumeStore F) (volumeName : String) (info : VolumeInfo) (data : Bytes) : Prop :=
  0 < info.spec.sizeLimitMb ∧ info.spec.limitBytes < s.usedBytes volumeName+data.length

instance (s : VolumeStore F) (volumeName : String) (info : VolumeInfo) (data : Bytes) :
    Decidable (s.Full volumeName info data) :=
  inferInstanceAs (Decidable (_ ∧ _))

/-- `write_file` once there is room: write the file and count it. -/
def storeFile (s : VolumeStore F) (volumeName filePath : String) (data : Bytes)
    (fault : Option WriteFault) (now : ℚ) : VolumeStore F × Bool :=
  match s.volumes.get? volumeName with
  | none => (s,false)
  | some info =>
    let file := s.fileOf locate info volumeName filePath
    match fault with
    | some .notOpened => (s,false)
    | some (.torn kept) => ({ s with disk := s.disk.set file kept },false)
    | none =>
      let entry : FileEntry :=
        { path := filePath, volumeName := volumeName, sizeBytes := data.length
          lastAccessed := now, createdAt := now }
      let info := { info with
        lastAccessed := now
        fileCount := info.fileCount+1
        usedBytes := info.usedBytes+data.length }
      let written := { s with disk := s.disk.set file data }
      ((written.setInfo volumeName info).modifyEntries volumeName (·.set filePath entry),true)

def writeFile (s : VolumeStore F) (volumeName filePath : String) (data : Bytes)
    (fault : Option WriteFault) (fails : F → Bool) (now : ℚ) : VolumeStore F × Bool :=
  match s.volumes.get? volumeName with
  | none => (s,false)
  | some info =>
    if s.Full volumeName info data then
      let evicted := (s.evictLru locate volumeName data.length fails).1
      if evicted.Full volumeName info data then (evicted,false)
      else evicted.storeFile locate volumeName filePath data fault now
    else s.storeFile locate volumeName filePath data fault now

/-- `exists` is whether the path names a file; reading it may still raise. -/
def readFile (s : VolumeStore F) (volumeName filePath : String) (fails : F → Bool) (now : ℚ) :
    VolumeStore F × Option Bytes :=
  match s.volumes.get? volumeName with
  | none => (s,none)
  | some info =>
    let file := s.fileOf locate info volumeName filePath
    match s.disk.get? file with
    | none => (s,none)
    | some data =>
      let touched := (s.setInfo volumeName { info with lastAccessed := now }).modifyEntries volumeName
        (·.modify filePath fun entry => { entry with lastAccessed := now })
      (touched,if fails file then none else some data)

end VolumeStore

/-- The calls of a storage volume, each with what the file system does in it. -/
inductive VolumeEvent (F : Type)
  | createVolume (spec : VolumeSpec) (made : Bool) (now : ℚ)
  | deleteVolume (name : String) (removed : F → Bool) (raises : Bool)
  | writeFile (volumeName filePath : String) (data : Bytes) (fault : Option WriteFault)
      (fails : F → Bool) (now : ℚ)
  | readFile (volumeName filePath : String) (fails : F → Bool) (now : ℚ)
  | deleteFile (volumeName filePath : String) (fails : F → Bool)
  | evictLru (volumeName : String) (neededBytes : ℕ) (fails : F → Bool)

namespace VolumeStore

variable {F : Type} [DecidableEq F] (locate : String → String → F)

def next (s : VolumeStore F) : VolumeEvent F → VolumeStore F
  | .createVolume spec made now => (s.createVolume spec made now).1
  | .deleteVolume name removed raises => (s.deleteVolume name removed raises).1
  | .writeFile volumeName filePath data fault fails now =>
    (s.writeFile locate volumeName filePath data fault fails now).1
  | .readFile volumeName filePath fails now =>
    (s.readFile locate volumeName filePath fails now).1
  | .deleteFile volumeName filePath fails => (s.deleteFile locate volumeName filePath fails).1
  | .evictLru volumeName neededBytes fails =>
    (s.evictLru locate volumeName neededBytes fails).1

def machine : Machine (VolumeStore F) (VolumeEvent F) := ⟨fun s e => some (s.next locate e)⟩

/-- A storage volume just made, on a file system that has files already. -/
def start (baseDir : String) (disk : Dict F Bytes) : VolumeStore F :=
  { baseDir := baseDir, disk := disk }

end VolumeStore
end FusionMultiNodes
