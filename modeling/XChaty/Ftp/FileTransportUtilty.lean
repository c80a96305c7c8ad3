import XChaty.Qt.QFile

/-! `FileTransportUtilty`, which packs a file into chunks and unpacks it.  Both functions do their
work when `open` fails: `PackFile` returns an empty package for every file it can read, and
`UnPackFile` writes only to a file that it could not open. -/

namespace XChaty.Ftp

open Qt

structure FilePackageHead where
  fileName : QString := .text []
  fileMd5 : QByteArray := []
  packCount : Int32 := 0
deriving DecidableEq, Repr

structure SubFilePackage where
  fileData : QByteArray := []
  packId : Int32 := 0
  md5 : QByteArray := []
deriving DecidableEq, Repr

structure FilePackage where
  head : FilePackageHead := {}
  subPackList : List SubFilePackage := []
deriving DecidableEq, Repr

def compareSubFilePacks (a b : SubFilePackage) : Bool := a.packId < b.packId

/-- `QByteArray::toHex`. -/
def toHex (ba : QByteArray) : QByteArray :=
  ba.flatMap fun b => [b / 16, b % 16].map fun d => if d < 10 then 48 + d else 87 + d

/-- The one instance, whose chunk size nothing changes after the constructor. -/
structure FileTransportUtilty where
  m_PakSize : Int
  pakSize_pos : 0 < m_PakSize

def FileTransportUtilty.getInstance : FileTransportUtilty :=
  { m_PakSize := 100 * 1024 * 1024, pakSize_pos := by decide }

section Pack

-- The MD5 digest of some bytes.
variable (md5 : QByteArray → QByteArray)

def SubFilePackage.setData (data : QByteArray) (id : Int32) : SubFilePackage :=
  { fileData := data, md5 := toHex (md5 data), packId := id }

/-- The variables of the loop of `PackFile`; `file` is what it reads from, and `hash` what it has
added to the hash. -/
structure PackState (σ : Type) where
  file : σ
  fileSize_byte : Int
  pak_size : Int
  pakSize_pos : 0 < pak_size
  id_count : Int32
  hash : QByteArray
  subPackList : List SubFilePackage

variable {σ : Type} (read : σ → Int → QByteArray × σ)

def PackState.next (s : PackState σ) (h : 0 < s.fileSize_byte) : PackState σ :=
  let pak_size := min s.fileSize_byte s.pak_size
  let (buf, file) := read s.file pak_size
  { file
    fileSize_byte := s.fileSize_byte - pak_size
    pak_size
    pakSize_pos := lt_min h s.pakSize_pos
    id_count := s.id_count + 1
    hash := s.hash ++ buf
    subPackList := s.subPackList ++ [SubFilePackage.setData md5 buf s.id_count] }

def packLoop (s : PackState σ) : PackState σ :=
  if h : 0 < s.fileSize_byte then packLoop (s.next md5 read h) else s
termination_by s.fileSize_byte.toNat
decreasing_by
  have hpos := lt_min h s.pakSize_pos
  simp only [PackState.next]
  omega

def FileTransportUtilty.packFile (util : FileTransportUtilty) (fs : FileSystem)
    (fileName : QString) : FilePackage :=
  let (opened, file) := (QFile.new fileName).openReadOnly fs
  if !opened then
    let s := packLoop md5 (fun (file : QFile) maxlen => file.read fs maxlen)
      { file, fileSize_byte := fs.size fileName, pak_size := util.m_PakSize
        pakSize_pos := util.pakSize_pos, id_count := 0, hash := [], subPackList := [] }
    { head :=
        { fileName, fileMd5 := toHex (md5 s.hash), packCount := Int32.ofInt (s.pak_size + 1) }
      subPackList := s.subPackList }
  else {}

end Pack

/-- The order of sub-packages with one `packId` is not specified; here it is the one they came
in. -/
def sortSubPackList (subPackList : List SubFilePackage) : List SubFilePackage :=
  subPackList.mergeSort fun a b => !compareSubFilePacks b a

def unPackFile (fs : FileSystem) (filePack : FilePackage) : FileSystem :=
  if filePack.head.packCount ≤ 0 then fs else
  let file := QFile.new filePack.head.fileName
  -- The name that avoids an existing file is not used.
  let _fileName := if file.exists_ fs then (QString.ofLiteral "%1(1)").arg filePack.head.fileName
    else filePack.head.fileName
  let (opened, file, fs) := file.openWriteOnly fs
  if !opened then
    (((sortSubPackList filePack.subPackList).map SubFilePackage.fileData).foldl
      (fun s data => s.1.write s.2 data) (file, fs)).2
  else fs

/-! ### What they do -/

theorem packFile_of_readable (md5 : QByteArray → QByteArray) (util : FileTransportUtilty)
    {fs : FileSystem} {fileName : QString} {content : QByteArray}
    (h : fs.contents fileName = some content) (hread : fs.readable fileName = true) :
    util.packFile md5 fs fileName = {} := by
  rw [FileTransportUtilty.packFile, QFile.openReadOnly_of_readable h hread]
  rfl

/-- No package has any of its data written: the file is created or truncated, or left alone. -/
theorem unPackFile_eq (fs : FileSystem) (filePack : FilePackage) :
    unPackFile fs filePack =
      if filePack.head.packCount ≤ 0 then fs
      else if fs.writable filePack.head.fileName then fs.set filePack.head.fileName []
      else fs := by
  unfold unPackFile
  by_cases hcount : filePack.head.packCount ≤ 0
  · rw [if_pos hcount, if_pos hcount]
  · rw [if_neg hcount, if_neg hcount]
    by_cases hopen : fs.writable filePack.head.fileName = true
    · rw [if_pos hopen]
      simp only [QFile.openWriteOnly_of_writable hopen]
      rfl
    · rw [if_neg hopen]
      simp only [QFile.openWriteOnly_of_not_writable hopen]
      change Prod.snd (List.foldl _ _ _) = fs
      rw [QFile.foldl_write_of_mode (by simp [QFile.new])]

def RoundTrips (content : QByteArray) (fs : FileSystem) (filePack : FilePackage) : Prop :=
  (unPackFile fs filePack).contents filePack.head.fileName = some content

/-- No file makes the round trip: unpacking what `PackFile` returns for it, in any order, changes
no file. -/
theorem round_trip_fails (md5 : QByteArray → QByteArray) (util : FileTransportUtilty)
    {fs fs' : FileSystem} {fileName : QString} {content : QByteArray}
    (hfile : fs.contents fileName = some content) (hread : fs.readable fileName = true)
    {subPackList : List SubFilePackage}
    (_hperm : subPackList.Perm (util.packFile md5 fs fileName).subPackList)
    (habsent : fs'.contents (util.packFile md5 fs fileName).head.fileName = none) :
    unPackFile fs' { util.packFile md5 fs fileName with subPackList } = fs' ∧
      ¬RoundTrips content fs' { util.packFile md5 fs fileName with subPackList } := by
  rw [packFile_of_readable md5 util hfile hread] at habsent ⊢
  have hsame : unPackFile fs' { head := {}, subPackList } = fs' := by
    rw [unPackFile_eq, if_pos (show (0 : Int32) ≤ 0 by decide)]
  refine ⟨hsame, fun hround => ?_⟩
  rw [RoundTrips, hsame, habsent] at hround
  cases hround

/-! ### A file of three bytes -/

/-- The MD5 digest of no bytes. -/
def emptyMd5 : QByteArray :=
  [0xd4, 0x1d, 0x8c, 0xd9, 0x8f, 0x00, 0xb2, 0x04, 0xe9, 0x80, 0x09, 0x98, 0xec, 0xf8, 0x42, 0x7e]

def oneFile : FileSystem where
  contents name := if name = .text [97] then some [1, 2, 3] else none
  readable _ := true
  writable _ := true

def noFile : FileSystem where
  contents _ := none
  readable _ := true
  writable _ := true

theorem round_trip_fails_one_file :
    unPackFile noFile
        { FileTransportUtilty.getInstance.packFile (fun _ => emptyMd5) oneFile (.text [97]) with
          subPackList := [] } = noFile ∧
      ¬RoundTrips [1, 2, 3] noFile
        { FileTransportUtilty.getInstance.packFile (fun _ => emptyMd5) oneFile (.text [97]) with
          subPackList := [] } :=
  round_trip_fails (fun _ => emptyMd5) .getInstance (by decide) (by decide) (by decide) rfl

theorem one_file_not_unpacked :
    oneFile.contents (.text [97]) = some [1, 2, 3] ∧ oneFile.readable (.text [97]) = true ∧
      ∀ md5, ¬RoundTrips [1, 2, 3] noFile
        (FileTransportUtilty.getInstance.packFile md5 oneFile (.text [97])) := by
  refine ⟨by decide, rfl, fun md5 hround => ?_⟩
  have hfile : oneFile.contents (.text [97]) = some [1, 2, 3] := by decide
  rw [packFile_of_readable md5 .getInstance hfile rfl] at hround
  unfold RoundTrips at hround
  exact absurd hround (by decide)

end XChaty.Ftp
