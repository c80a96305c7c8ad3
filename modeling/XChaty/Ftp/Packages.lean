import XChaty.Ftp.FileTransportUtilty

/-! What a package is for.  Packing should cut a file into an exact partition, and unpacking should
put the sub-packages together in the order of their ids, check them before it writes, and leave every
other file alone.  Both functions do their work when `open` fails, so the first never holds, and the
others hold where there is nothing to write or nothing to lose. -/

namespace XChaty.Ftp

open Qt

/-! ### Packing -/

section Pack

variable (md5 : QByteArray → QByteArray)

/-- The package cuts the content into chunks of one size, the last of them at most of that size and
not empty, with ids from zero, hashes, and their number. -/
structure ExactPartition (pakSize : Int) (content : QByteArray) (pack : FilePackage) : Prop where
  ids : pack.subPackList.map SubFilePackage.packId =
    (List.range pack.subPackList.length).map Int32.ofNat
  data : pack.subPackList.flatMap SubFilePackage.fileData = content
  full : ∀ before sub rest, pack.subPackList = before ++ sub :: rest → rest ≠ [] →
    (sub.fileData.length : Int) = pakSize
  last : ∀ before sub, pack.subPackList = before ++ [sub] →
    sub.fileData ≠ [] ∧ (sub.fileData.length : Int) ≤ pakSize
  subMd5 : ∀ sub ∈ pack.subPackList, sub.md5 = toHex (md5 sub.fileData)
  fileMd5 : pack.head.fileMd5 = toHex (md5 content)
  packCount : pack.head.packCount.toInt = pack.subPackList.length
  count : (pack.subPackList.length : Int) = (content.length + pakSize - 1) / pakSize

theorem toHex_length (ba : QByteArray) : (toHex ba).length = 2 * ba.length := by
  induction ba with
  | nil => rfl
  | cons b ba ih =>
    rw [toHex, List.flatMap_cons, List.length_append]
    change 2 + (toHex ba).length = _
    rw [ih, List.length_cons]
    omega

/-- Not even an empty file is partitioned, since the package has no hash of it. -/
theorem never_exact_partition (util : FileTransportUtilty) {fs : FileSystem} {fileName : QString}
    {content : QByteArray} (hfile : fs.contents fileName = some content)
    (hread : fs.readable fileName = true) (hmd5 : ∀ ba, (md5 ba).length = 16) :
    ¬ExactPartition md5 util.m_PakSize content (util.packFile md5 fs fileName) := by
  intro hpartition
  have hhash := congrArg List.length hpartition.fileMd5
  rw [packFile_of_readable md5 util hfile hread, toHex_length, hmd5] at hhash
  cases hhash

end Pack

/-- The MD5 digests of the three bytes of the file, and of no bytes. -/
def oneFileMd5 (ba : QByteArray) : QByteArray :=
  if ba = [1, 2, 3] then
    [0x52, 0x89, 0xdf, 0x73, 0x7d, 0xf5, 0x73, 0x26, 0xfc, 0xdd, 0x22, 0x59,
      0x7a, 0xfb, 0x1f, 0xac]
  else emptyMd5

theorem oneFileMd5_length (ba : QByteArray) : (oneFileMd5 ba).length = 16 := by
  unfold oneFileMd5
  split
  · rfl
  · rfl

theorem never_exact_partition_one_file :
    ¬ExactPartition oneFileMd5 FileTransportUtilty.getInstance.m_PakSize [1, 2, 3]
      (FileTransportUtilty.getInstance.packFile oneFileMd5 oneFile (.text [97])) :=
  never_exact_partition oneFileMd5 .getInstance (by decide) rfl oneFileMd5_length

/-- The three bytes are in no sub-package. -/
theorem one_file_not_packed :
    ¬ExactPartition oneFileMd5 FileTransportUtilty.getInstance.m_PakSize [1, 2, 3]
      (FileTransportUtilty.getInstance.packFile oneFileMd5 oneFile (.text [97])) := by
  have hfile : oneFile.contents (.text [97]) = some [1, 2, 3] := by decide
  rw [packFile_of_readable oneFileMd5 .getInstance hfile rfl]
  intro hpartition
  cases hpartition.data

/-! ### The order of the ids -/

theorem sortSubPackList_perm (subPackList : List SubFilePackage) :
    (sortSubPackList subPackList).Perm subPackList :=
  List.mergeSort_perm subPackList _

theorem not_compare_iff (a b : SubFilePackage) :
    (!compareSubFilePacks b a) = true ↔ a.packId ≤ b.packId := by
  simp [compareSubFilePacks]

theorem sortSubPackList_pairwise (subPackList : List SubFilePackage) :
    (sortSubPackList subPackList).Pairwise fun a b => a.packId ≤ b.packId := by
  have hsorted : (sortSubPackList subPackList).Pairwise fun a b => !compareSubFilePacks b a := by
    apply List.pairwise_mergeSort
    · intro a b c hab hbc
      rw [not_compare_iff] at hab hbc ⊢
      exact Int32.le_trans hab hbc
    · intro a b
      rw [Bool.or_eq_true, not_compare_iff, not_compare_iff]
      exact Int32.le_total a.packId b.packId
  exact hsorted.imp fun {a b} hab => (not_compare_iff a b).mp hab

theorem sortSubPackList_ordered {subPackList : List SubFilePackage}
    (hids : (subPackList.map SubFilePackage.packId).Nodup) :
    (sortSubPackList subPackList).Pairwise fun a b => a.packId < b.packId := by
  have hnodup : ((sortSubPackList subPackList).map SubFilePackage.packId).Nodup :=
    ((sortSubPackList_perm subPackList).map SubFilePackage.packId).nodup_iff.mpr hids
  rw [List.Nodup, List.pairwise_map] at hnodup
  exact (sortSubPackList_pairwise subPackList).imp₂
    (fun a b hle hne => Int32.lt_of_le_of_ne hle hne) hnodup

/-- With distinct ids there is one order, whatever order the sub-packages came in. -/
theorem eq_sortSubPackList {ordered subPackList : List SubFilePackage}
    (hperm : ordered.Perm subPackList)
    (hordered : ordered.Pairwise fun a b => a.packId < b.packId) :
    ordered = sortSubPackList subPackList := by
  have hids : (subPackList.map SubFilePackage.packId).Nodup := by
    rw [← (hperm.map SubFilePackage.packId).nodup_iff, List.Nodup, List.pairwise_map]
    exact hordered.imp fun {a b} hab => Int32.ne_of_lt hab
  refine List.Perm.eq_of_pairwise ?_ hordered (sortSubPackList_ordered hids)
    (hperm.trans (sortSubPackList_perm subPackList).symm)
  intro a b _ _ hab hba
  exact absurd (Int32.lt_trans hab hba) Int32.lt_irrefl

theorem sortSubPackList_eq_of_perm {xs ys : List SubFilePackage} (hperm : xs.Perm ys)
    (hids : (ys.map SubFilePackage.packId).Nodup) : sortSubPackList xs = sortSubPackList ys := by
  have hids' : (xs.map SubFilePackage.packId).Nodup :=
    (hperm.map SubFilePackage.packId).nodup_iff.mpr hids
  exact eq_sortSubPackList ((sortSubPackList_perm xs).trans hperm) (sortSubPackList_ordered hids')

theorem range_ids_pairwise {n : Nat} (hn : n ≤ 2 ^ 31) :
    ((List.range n).map Int32.ofNat).Pairwise (· < ·) := by
  rw [List.pairwise_map]
  refine List.Pairwise.imp_of_mem ?_ List.pairwise_lt_range
  intro i j _ hj hij
  have hlt := List.mem_range.mp hj
  rw [Int32.lt_iff_toInt_lt, Int32.toInt_ofNat_of_lt (by omega), Int32.toInt_ofNat_of_lt (by omega)]
  omega

/-! ### Unpacking -/

section Unpack

variable (fs : FileSystem) (pack : FilePackage)

/-- The file has the data of the sub-packages in the order of their ids, and so it is the same file
in whatever order they come. -/
structure Reassembles : Prop where
  content : ∀ ordered : List SubFilePackage, ordered.Perm pack.subPackList →
    ordered.Pairwise (fun a b => a.packId < b.packId) →
    (unPackFile fs pack).contents pack.head.fileName =
      some (ordered.flatMap SubFilePackage.fileData)
  permuted : ∀ subPackList : List SubFilePackage, subPackList.Perm pack.subPackList →
    (unPackFile fs { pack with subPackList }).contents pack.head.fileName =
      (unPackFile fs pack).contents pack.head.fileName

/-- Every file that there was has its content after the call. -/
def KeepsFiles : Prop :=
  ∀ name content, fs.contents name = some content →
    (unPackFile fs pack).contents name = some content

@[simp] theorem set_contents (fileName name : QString) (content : QByteArray) :
    (fs.set fileName content).contents name =
      if name = fileName then some content else fs.contents name := rfl

/-- What the hashes, the ids and the count of a package are carried for. -/
structure Intact (md5 : QByteArray → QByteArray) : Prop where
  checked : ∀ sub ∈ pack.subPackList, sub.md5 = toHex (md5 sub.fileData)
  ids : (pack.subPackList.map SubFilePackage.packId).Perm
    ((List.range pack.head.packCount.toInt.toNat).map Int32.ofNat)
  hash : pack.head.fileMd5 =
    toHex (md5 ((sortSubPackList pack.subPackList).flatMap SubFilePackage.fileData))

/-- An intact package is intact in whatever order its sub-packages come. -/
theorem Intact.permuted {md5 : QByteArray → QByteArray} {pack : FilePackage}
    (h : Intact pack md5) {subPackList : List SubFilePackage}
    (hperm : subPackList.Perm pack.subPackList) : Intact { pack with subPackList } md5 := by
  have hcount : pack.head.packCount.toInt.toNat ≤ 2 ^ 31 := by
    have hlt := pack.head.packCount.toInt_lt
    omega
  have hrange : ((List.range pack.head.packCount.toInt.toNat).map Int32.ofNat).Nodup :=
    (range_ids_pairwise hcount).imp fun {a b} hab => Int32.ne_of_lt hab
  have hids : (pack.subPackList.map SubFilePackage.packId).Nodup := h.ids.nodup_iff.mpr hrange
  constructor
  · intro sub hsub
    exact h.checked sub (hperm.mem_iff.mp hsub)
  · exact (hperm.map SubFilePackage.packId).trans h.ids
  · rw [h.hash, sortSubPackList_eq_of_perm hperm hids]

/-- A package that cuts a file exactly is intact, and its data in the order of the ids is the
file. -/
theorem ExactPartition.intact {md5 : QByteArray → QByteArray} {pakSize : Int}
    {content : QByteArray} {pack : FilePackage} (h : ExactPartition md5 pakSize content pack) :
    Intact pack md5 ∧
      (sortSubPackList pack.subPackList).flatMap SubFilePackage.fileData = content := by
  have hlength : pack.subPackList.length ≤ 2 ^ 31 := by
    have hlt := pack.head.packCount.toInt_lt
    rw [h.packCount] at hlt
    omega
  have hordered : pack.subPackList.Pairwise fun a b => a.packId < b.packId := by
    have hids := range_ids_pairwise hlength
    rw [← h.ids, List.pairwise_map] at hids
    exact hids
  have hsorted := eq_sortSubPackList (List.Perm.refl _) hordered
  rw [← hsorted]
  refine ⟨⟨h.subMd5, ?_, ?_⟩, h.data⟩
  · rw [h.packCount, Int.toNat_natCast, h.ids]
  · rw [← hsorted, h.data]
    exact h.fileMd5

/-- A damaged package leaves the file system as it is. -/
def RejectsDamaged (md5 : QByteArray → QByteArray) : Prop :=
  ¬Intact pack md5 → unPackFile fs pack = fs

variable {fs pack}

theorem unPackFile_of_writable (hcount : 0 < pack.head.packCount)
    (hwrite : fs.writable pack.head.fileName = true) :
    unPackFile fs pack = fs.set pack.head.fileName [] := by
  rw [unPackFile_eq, if_neg (Int32.not_le.mpr hcount), if_pos hwrite]

variable (fs pack)

/-- The call leaves the file system, or leaves an empty file under the name of the package. -/
theorem unPackFile_cases :
    ((pack.head.packCount ≤ 0 ∨ fs.writable pack.head.fileName = false) ∧
      unPackFile fs pack = fs) ∨
    (¬(pack.head.packCount ≤ 0 ∨ fs.writable pack.head.fileName = false) ∧
      unPackFile fs pack = fs.set pack.head.fileName []) := by
  by_cases hcount : pack.head.packCount ≤ 0
  · left
    exact ⟨.inl hcount, by rw [unPackFile_eq, if_pos hcount]⟩
  · cases hwrite : fs.writable pack.head.fileName with
    | false =>
      left
      exact ⟨.inr rfl, by rw [unPackFile_eq, if_neg hcount, hwrite, if_neg Bool.false_ne_true]⟩
    | true =>
      right
      exact ⟨by simp [hcount], unPackFile_of_writable (Int32.not_le.mp hcount) hwrite⟩

variable {fs pack}

/-- The file is empty, so it is right exactly when all the data is. -/
theorem reassembles_iff (hcount : 0 < pack.head.packCount)
    (hids : (pack.subPackList.map SubFilePackage.packId).Nodup)
    (hwrite : fs.writable pack.head.fileName = true) :
    Reassembles fs pack ↔ ∀ sub ∈ pack.subPackList, sub.fileData = [] := by
  have hempty : ∀ ordered : List SubFilePackage, ordered.Perm pack.subPackList →
      (some [] = some (ordered.flatMap SubFilePackage.fileData) ↔
        ∀ sub ∈ pack.subPackList, sub.fileData = []) := by
    intro ordered hperm
    rw [Option.some.injEq, eq_comm, List.flatMap_eq_nil_iff]
    exact forall_congr' fun sub => by rw [hperm.mem_iff]
  have hcontents : (unPackFile fs pack).contents pack.head.fileName = some [] := by
    rw [unPackFile_of_writable hcount hwrite, set_contents, if_pos rfl]
  constructor
  · intro hreassembles
    have hperm := sortSubPackList_perm pack.subPackList
    have hcontent := hreassembles.content _ hperm (sortSubPackList_ordered hids)
    rw [hcontents] at hcontent
    exact (hempty _ hperm).mp hcontent
  · intro hdata
    constructor
    · intro ordered hperm _
      rw [hcontents]
      exact (hempty ordered hperm).mpr hdata
    · intro subPackList _
      rw [unPackFile_eq, unPackFile_eq]

def twoSubPacks : FilePackage :=
  { head := { fileName := .text [97], packCount := 2 }
    subPackList := [{ fileData := [2], packId := 1 }, { fileData := [1], packId := 0 }] }

theorem reassembles_iff_two_sub_packs :
    Reassembles noFile twoSubPacks ↔ ∀ sub ∈ twoSubPacks.subPackList, sub.fileData = [] :=
  reassembles_iff (by decide) (by decide) rfl

theorem two_sub_packs_lost : ¬Reassembles noFile twoSubPacks := by
  intro hreassembles
  have hcontent := hreassembles.content
    [{ fileData := [1], packId := 0 }, { fileData := [2], packId := 1 }] (by decide) (by decide)
  rw [unPackFile_of_writable (by decide) rfl] at hcontent
  exact absurd hcontent (by decide)

/-- A file is lost exactly when it has content and can be opened under the name of a package that
says it has sub-packages. -/
theorem keeps_files_iff (fs : FileSystem) (pack : FilePackage) :
    KeepsFiles fs pack ↔
      pack.head.packCount ≤ 0 ∨ fs.writable pack.head.fileName = false ∨
        fs.contents pack.head.fileName = none ∨ fs.contents pack.head.fileName = some [] := by
  rw [← or_assoc]
  obtain ⟨hidle, hsame⟩ | ⟨hopened, hset⟩ := unPackFile_cases fs pack
  · simp only [KeepsFiles, hsame]
    exact ⟨fun _ => .inl hidle, fun _ _ _ h => h⟩
  · simp only [KeepsFiles, hset, hopened, false_or, set_contents]
    constructor
    · intro hkeeps
      cases hfile : fs.contents pack.head.fileName with
      | none => exact .inl rfl
      | some content =>
        have hkept := hkeeps _ _ hfile
        rw [if_pos rfl] at hkept
        exact .inr hkept.symm
    · intro hfile name content hname
      by_cases hsame : name = pack.head.fileName
      · rw [if_pos hsame]
        rw [← hsame, hname] at hfile
        simpa [eq_comm] using hfile
      · rw [if_neg hsame]
        exact hname

/-- A package that says it has one sub-package and has none. -/
def lostSubPack : FilePackage := { head := { fileName := .text [97], packCount := 1 } }

theorem file_wiped : ¬KeepsFiles oneFile lostSubPack := by
  intro hkeeps
  have hkept := hkeeps (.text [97]) [1, 2, 3] (by decide)
  rw [unPackFile_of_writable (by decide) rfl] at hkept
  exact absurd hkept (by decide)

theorem set_eq_self_iff (fs : FileSystem) (fileName : QString) (content : QByteArray) :
    fs.set fileName content = fs ↔ fs.contents fileName = some content := by
  obtain ⟨contents, readable, writable⟩ := fs
  simp only [FileSystem.set, FileSystem.mk.injEq, and_true]
  constructor
  · intro hsame
    rw [← hsame]
    exact if_pos rfl
  · intro hfile
    funext name
    by_cases hname : name = fileName
    · rw [if_pos hname, hname, hfile]
    · rw [if_neg hname]

theorem unPackFile_eq_self_iff (fs : FileSystem) (pack : FilePackage) :
    unPackFile fs pack = fs ↔
      pack.head.packCount ≤ 0 ∨ fs.writable pack.head.fileName = false ∨
        fs.contents pack.head.fileName = some [] := by
  rw [← or_assoc]
  obtain ⟨hidle, hsame⟩ | ⟨hopened, hset⟩ := unPackFile_cases fs pack
  · exact ⟨fun _ => .inl hidle, fun _ => hsame⟩
  · rw [hset, set_eq_self_iff, or_iff_right hopened]

/-- Nothing is checked: a damaged package leaves the files exactly when any package of that name and
count does. -/
theorem rejects_damaged_iff (md5 : QByteArray → QByteArray) (fs : FileSystem)
    (pack : FilePackage) :
    RejectsDamaged fs pack md5 ↔
      (¬Intact pack md5 → pack.head.packCount ≤ 0 ∨ fs.writable pack.head.fileName = false ∨
        fs.contents pack.head.fileName = some []) := by
  unfold RejectsDamaged
  rw [unPackFile_eq_self_iff]

theorem lost_sub_pack_accepted : ¬RejectsDamaged noFile lostSubPack oneFileMd5 := by
  intro hrejects
  have hdamaged : ¬Intact lostSubPack oneFileMd5 := by
    intro hintact
    exact absurd hintact.ids (by decide)
  have hsame := (unPackFile_eq_self_iff noFile lostSubPack).mp (hrejects hdamaged)
  exact absurd hsame (by decide)

end Unpack

end XChaty.Ftp
