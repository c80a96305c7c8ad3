import XChaty.Qt.DataStream

/-! `QFile` on a file system: a file that is open for reading returns its next bytes, one that is
open for writing appends, and one that is not open does neither. -/

namespace XChaty.Qt

/-- The files by name, and the names that can be opened for reading and for writing.  A name that
can be opened for writing and has no file can be created. -/
structure FileSystem where
  contents : QString → Option QByteArray
  readable : QString → Bool
  writable : QString → Bool

def FileSystem.size (fs : FileSystem) (fileName : QString) : Nat :=
  ((fs.contents fileName).getD []).length

def FileSystem.set (fs : FileSystem) (fileName : QString) (content : QByteArray) : FileSystem :=
  { fs with contents := fun name => if name = fileName then some content else fs.contents name }

inductive OpenMode
  | readOnly
  | writeOnly
deriving DecidableEq, Repr

structure QFile where
  fileName : QString
  mode : Option OpenMode
  pos : Nat
deriving DecidableEq, Repr

def QFile.new (fileName : QString) : QFile := { fileName, mode := none, pos := 0 }

namespace QFile

variable (file : QFile) (fs : FileSystem)

def exists_ : Bool := (fs.contents file.fileName).isSome

def openReadOnly : Bool × QFile :=
  if file.mode = none ∧ file.exists_ fs ∧ fs.readable file.fileName then
    (true, { file with mode := some .readOnly, pos := 0 })
  else (false, file)

/-- Truncates the file, or creates it. -/
def openWriteOnly : Bool × QFile × FileSystem :=
  if file.mode = none ∧ fs.writable file.fileName then
    (true, { file with mode := some .writeOnly, pos := 0 }, fs.set file.fileName [])
  else (false, file, fs)

def read (maxlen : Int) : QByteArray × QFile :=
  match file.mode with
  | some .readOnly =>
    let data := (((fs.contents file.fileName).getD []).drop file.pos).take maxlen.toNat
    (data, { file with pos := file.pos + data.length })
  | _ => ([], file)

def write (data : QByteArray) : QFile × FileSystem :=
  match file.mode with
  | some .writeOnly =>
    ({ file with pos := file.pos + data.length },
      fs.set file.fileName ((fs.contents file.fileName).getD [] ++ data))
  | _ => (file, fs)

variable {file fs}

theorem openReadOnly_of_readable {fileName : QString} {content : QByteArray}
    (h : fs.contents fileName = some content) (hread : fs.readable fileName = true) :
    (QFile.new fileName).openReadOnly fs =
      (true, { fileName, mode := some .readOnly, pos := 0 }) := by
  rw [openReadOnly, if_pos ⟨rfl, by simp [exists_, QFile.new, h], hread⟩]
  rfl

theorem openWriteOnly_of_writable {fileName : QString} (h : fs.writable fileName = true) :
    (QFile.new fileName).openWriteOnly fs =
      (true, { fileName, mode := some .writeOnly, pos := 0 }, fs.set fileName []) := by
  rw [openWriteOnly, if_pos ⟨rfl, h⟩]
  rfl

theorem openWriteOnly_of_not_writable {fileName : QString} (h : ¬fs.writable fileName = true) :
    (QFile.new fileName).openWriteOnly fs = (false, QFile.new fileName, fs) := by
  rw [openWriteOnly, if_neg fun hopen => h hopen.2]

theorem foldl_write_of_mode (h : file.mode ≠ some .writeOnly) (chunks : List QByteArray) :
    chunks.foldl (fun s data => s.1.write s.2 data) (file, fs) = (file, fs) := by
  induction chunks with
  | nil => rfl
  | cons data chunks ih =>
    have hwrite : file.write fs data = (file, fs) := by
      unfold write
      split
      · rename_i hmode
        exact absurd hmode h
      · rfl
    rw [List.foldl_cons, hwrite, ih]

end QFile

end XChaty.Qt
