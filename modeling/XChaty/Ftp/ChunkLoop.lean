import Mathlib.Algebra.Order.BigOperators.Group.List
import Mathlib.Tactic.Ring
import XChaty.ProofKit.Loop
import XChaty.Ftp.FileTransportUtilty

/-! The loop of `PackFile` on its own, for any size of the file and whatever the reads return.  Each
round overwrites `pak_size` by what it asks for, so only the last round can lower it; the sizes that
are asked for cover the file once. -/

namespace XChaty.Ftp

open Qt ProofKit

/-! ### Counting chunks -/

/-- `n / pakSize`, rounded up. -/
def chunkCount (n pakSize : Int) : Int := (n + pakSize - 1) / pakSize

/-- It is the least number of chunks that hold `n` bytes. -/
theorem chunkCount_le_iff {n pakSize k : Int} (hpos : 0 < pakSize) :
    chunkCount n pakSize ≤ k ↔ n ≤ k * pakSize := by
  have hlt : chunkCount n pakSize < k + 1 ↔ n + pakSize - 1 < (k + 1) * pakSize :=
    Int.ediv_lt_iff_lt_mul hpos
  rw [Int.add_mul, Int.one_mul] at hlt
  omega

theorem chunkCount_zero {pakSize : Int} (hpos : 0 < pakSize) : chunkCount 0 pakSize = 0 :=
  Int.ediv_eq_zero_of_lt (by omega) (by omega)

/-- A round that asks for the smaller of the two sizes leaves one chunk less. -/
theorem chunkCount_round {n pakSize : Int} (hn : 0 < n) (hpos : 0 < pakSize) :
    chunkCount (n - min n pakSize) (min n pakSize) + 1 = chunkCount n pakSize := by
  rcases Int.le_total pakSize n with hfull | hlast
  · have hshift : n + pakSize - 1 = n - pakSize + pakSize - 1 + 1 * pakSize := by ring
    rw [min_eq_right hfull, chunkCount, chunkCount, hshift,
      Int.add_mul_ediv_right _ _ (Int.ne_of_gt hpos)]
  · have hone : chunkCount n pakSize = 1 := by
      have hle : chunkCount n pakSize ≤ 1 := (chunkCount_le_iff hpos).mpr (by omega)
      have hnot : ¬chunkCount n pakSize ≤ 0 := fun h => by
        have := (chunkCount_le_iff hpos).mp h
        omega
      omega
    rw [min_eq_left hlast, Int.sub_self, chunkCount_zero hn, hone]
    rfl

/-! ### The loop -/

section Loop

variable {σ : Type} (md5 : QByteArray → QByteArray) (read : σ → Int → QByteArray × σ)

/-- The variables before the loop, for a file of `n` bytes. -/
def PackState.start (util : FileTransportUtilty) (file : σ) (n : Int) : PackState σ :=
  { file, fileSize_byte := n, pak_size := util.m_PakSize, pakSize_pos := util.pakSize_pos
    id_count := 0, hash := [], subPackList := [] }

theorem PackState.next_fileSize (s : PackState σ) (h : 0 < s.fileSize_byte) :
    (s.next md5 read h).fileSize_byte = s.fileSize_byte - min s.fileSize_byte s.pak_size := rfl

theorem PackState.next_pakSize (s : PackState σ) (h : 0 < s.fileSize_byte) :
    (s.next md5 read h).pak_size = min s.fileSize_byte s.pak_size := rfl

def packing : Loop (PackState σ) where
  round s := if h : 0 < s.fileSize_byte then some (s.next md5 read h) else none
  measure s := s.fileSize_byte.toNat
  lowers := by
    intro s t hround
    split at hround
    · rename_i h
      cases hround
      have hpos := lt_min h s.pakSize_pos
      rw [PackState.next_fileSize]
      omega
    · cases hround

variable {md5 read}

theorem packing_round {s t : PackState σ} (hround : (packing md5 read).round s = some t) :
    ∃ h : 0 < s.fileSize_byte, t = s.next md5 read h := by
  simp only [packing] at hround
  split at hround
  · rename_i h
    exact ⟨h, (Option.some.inj hround).symm⟩
  · cases hround

theorem packing_end {s : PackState σ} (hend : (packing md5 read).round s = none) :
    s.fileSize_byte ≤ 0 := by
  simp only [packing] at hend
  split at hend
  · cases hend
  · omega

theorem packLoop_eq (s : PackState σ) : packLoop md5 read s = (packing md5 read).final s := by
  induction s using packLoop.induct md5 read with
  | case1 s h ih =>
    have hround : (packing md5 read).round s = some (s.next md5 read h) := dif_pos h
    rw [packLoop, dif_pos h, ih, Loop.final_of_some hround]
  | case2 s h =>
    have hround : (packing md5 read).round s = none := dif_neg h
    rw [packLoop, dif_neg h, Loop.final_of_none hround]

end Loop

/-- It is this loop that `PackFile` runs, on a file that it cannot open. -/
theorem packFile_of_not_opened (md5 : QByteArray → QByteArray) (util : FileTransportUtilty)
    {fs : FileSystem} {fileName : QString}
    (h : (QFile.new fileName).openReadOnly fs = (false, QFile.new fileName)) :
    (util.packFile md5 fs fileName).subPackList =
      (packLoop md5 (fun file maxlen => file.read fs maxlen)
        (PackState.start util (QFile.new fileName) (fs.size fileName))).subPackList := by
  simp only [FileTransportUtilty.packFile, h, Bool.not_false, if_true]
  rfl

/-! ### What the rounds ask for -/

section Cover

variable {σ : Type} {md5 : QByteArray → QByteArray} {read : σ → Int → QByteArray × σ}

/-- `read`, with a record of the sizes that it is asked for. -/
def recorded (read : σ → Int → QByteArray × σ) (file : σ × List Int) (maxlen : Int) :
    QByteArray × σ × List Int :=
  ((read file.1 maxlen).1, (read file.1 maxlen).2, file.2 ++ [maxlen])

def PackState.forget (s : PackState (σ × List Int)) : PackState σ :=
  { s with file := s.file.1 }

/-- The record changes nothing else. -/
theorem packLoop_forget (s : PackState (σ × List Int)) :
    packLoop md5 read s.forget = (packLoop md5 (recorded read) s).forget := by
  rw [packLoop_eq, packLoop_eq]
  refine Loop.final_map (fun s => ?_) s
  by_cases h : 0 < s.fileSize_byte
  · have hforget : 0 < s.forget.fileSize_byte := h
    simp only [packing, dif_pos h, dif_pos hforget]
    rfl
  · have hforget : ¬0 < s.forget.fileSize_byte := h
    simp only [packing, dif_neg h, dif_neg hforget]
    rfl

/-- What holds whenever the condition of the loop is tested: what has been asked for and what is
left make up the file, and the rounds that have been made and those that are left make up the
count. -/
structure Packed (pakSize n : Int) (s : PackState (σ × List Int)) : Prop where
  nonneg : 0 ≤ s.fileSize_byte
  pak_size : s.pak_size ≤ pakSize
  requests : ∀ r ∈ s.file.2, 0 < r ∧ r ≤ pakSize
  sum : s.file.2.sum + s.fileSize_byte = n
  rounds : s.file.2.length + chunkCount s.fileSize_byte s.pak_size = chunkCount n pakSize
  ids : s.subPackList.map SubFilePackage.packId = (List.range s.file.2.length).map Int32.ofNat
  id_count : s.id_count = Int32.ofNat s.file.2.length

theorem packed_start {n : Int} (util : FileTransportUtilty) (file : σ) (hn : 0 ≤ n) :
    Packed util.m_PakSize n (PackState.start util (file, []) n) := by
  constructor
  · exact hn
  · exact Int.le_refl _
  · intro r hr
    cases hr
  · exact Int.zero_add n
  · exact Int.zero_add _
  · rfl
  · rfl

theorem Packed.next {pakSize n : Int} {s : PackState (σ × List Int)} (hs : Packed pakSize n s)
    (h : 0 < s.fileSize_byte) : Packed pakSize n (s.next md5 (recorded read) h) := by
  have hpos := lt_min h s.pakSize_pos
  have hleft : min s.fileSize_byte s.pak_size ≤ s.fileSize_byte := min_le_left _ _
  have hpak : min s.fileSize_byte s.pak_size ≤ pakSize :=
    Int.le_trans (min_le_right _ _) hs.pak_size
  have hfile : (s.next md5 (recorded read) h).file.2 =
      s.file.2 ++ [min s.fileSize_byte s.pak_size] := rfl
  have hlength : (s.next md5 (recorded read) h).file.2.length = s.file.2.length + 1 := by
    rw [hfile, List.length_append, List.length_singleton]
  constructor
  · rw [PackState.next_fileSize]
    omega
  · exact hpak
  · intro r hr
    rw [hfile] at hr
    rcases List.mem_append.mp hr with hold | hnew
    · exact hs.requests r hold
    · rw [List.mem_singleton.mp hnew]
      exact ⟨hpos, hpak⟩
  · have hsum := hs.sum
    rw [hfile, List.sum_append, List.sum_singleton, PackState.next_fileSize]
    omega
  · have hround := chunkCount_round h s.pakSize_pos
    have hrounds := hs.rounds
    rw [hlength, PackState.next_fileSize, PackState.next_pakSize]
    omega
  · change (s.subPackList ++ [SubFilePackage.setData md5 _ s.id_count]).map _ = _
    rw [hlength, List.range_succ, List.map_append, List.map_append, hs.ids, hs.id_count]
    rfl
  · change s.id_count + 1 = _
    rw [hlength, hs.id_count, Int32.ofNat_add]
    rfl

theorem Packed.round {pakSize n : Int} {s t : PackState (σ × List Int)}
    (hround : (packing md5 (recorded read)).round s = some t) (hs : Packed pakSize n s) :
    Packed pakSize n t := by
  obtain ⟨h, rfl⟩ := packing_round hround
  exact hs.next h

/-- From the heads of the loop and its end: it makes `chunkCount` rounds, asks for positive sizes
up to `pakSize` that make up the file, and gives out the ids from zero on. -/
structure FullCover (pakSize n : Int) (heads : List (PackState (σ × List Int)))
    (done : PackState (σ × List Int)) : Prop where
  heads_length : (heads.length : Int) = chunkCount n pakSize + 1
  rounds : (done.file.2.length : Int) = chunkCount n pakSize
  fileSize : ∀ s ∈ heads, 0 ≤ s.fileSize_byte ∧ s.fileSize_byte < 2 ^ 63
  ends : done.fileSize_byte = 0
  requests : ∀ r ∈ done.file.2, 0 < r ∧ r ≤ pakSize
  sum : done.file.2.sum = n
  ids : done.subPackList.map (fun sub => sub.packId.toInt) =
    (List.range done.file.2.length).map Int.ofNat
  id_count : done.id_count.toInt = done.file.2.length

/-- The loop of `PackFile` covers the file, whatever the reads return. -/
theorem packLoop_full_cover (md5 : QByteArray → QByteArray) (read : σ → Int → QByteArray × σ)
    (util : FileTransportUtilty) (file : σ) {n : Int} (hn : 0 ≤ n) (hlarge : n < 2 ^ 63)
    (hcount : chunkCount n util.m_PakSize ≤ 2 ^ 31 - 1) :
    FullCover util.m_PakSize n
      ((packing md5 (recorded read)).heads (PackState.start util (file, []) n))
      (packLoop md5 (recorded read) (PackState.start util (file, []) n)) := by
  have hpacked : ∀ s ∈ (packing md5 (recorded read)).heads (PackState.start util (file, []) n),
      Packed util.m_PakSize n s :=
    Loop.heads_invariant (fun _ _ hround hs => hs.round hround) (packed_start util file hn)
  have hdone := hpacked _ (Loop.final_mem_heads _)
  have hend := packing_end (Loop.round_final (L := packing md5 (recorded read))
    (PackState.start util (file, []) n))
  have hheads := Loop.count_final (L := packing md5 (recorded read)) (fun s => s.file.2.length)
    (fun s t hround => by
      obtain ⟨h, rfl⟩ := packing_round hround
      exact List.length_append)
    (PackState.start util (file, []) n)
  rw [← packLoop_eq] at hdone hend hheads
  have hzero := Int.le_antisymm hend hdone.nonneg
  have hrounds := hdone.rounds
  rw [hzero, chunkCount_zero (PackState.pakSize_pos _), Int.add_zero] at hrounds
  constructor
  · change _ + 1 = 0 + _ at hheads
    omega
  · exact hrounds
  · intro s hs
    have hsum := (hpacked s hs).sum
    have hrequests := List.sum_nonneg fun r hr => Int.le_of_lt ((hpacked s hs).requests r hr).1
    exact ⟨(hpacked s hs).nonneg, by omega⟩
  · exact hzero
  · exact hdone.requests
  · have hsum := hdone.sum
    rw [hzero, Int.add_zero] at hsum
    exact hsum
  · have hids := congrArg (List.map Int32.toInt) hdone.ids
    rw [List.map_map, List.map_map] at hids
    refine Eq.trans hids (List.map_congr_left fun k hk => ?_)
    have hlt := List.mem_range.mp hk
    exact Int32.toInt_ofNat_of_lt (by omega)
  · rw [hdone.id_count]
    exact Int32.toInt_ofNat_of_lt (by omega)

end Cover

/-- A file of 250 MB and two bytes, from which every read returns nothing. -/
theorem packLoop_full_cover_empty_reads :
    FullCover (100 * 1024 * 1024) (250 * 1024 * 1024 + 2)
      ((packing (fun _ => emptyMd5) (recorded fun _ _ => ([], ()))).heads
        (PackState.start .getInstance ((), []) (250 * 1024 * 1024 + 2)))
      (packLoop (fun _ => emptyMd5) (recorded fun _ _ => ([], ()))
        (PackState.start .getInstance ((), []) (250 * 1024 * 1024 + 2))) :=
  packLoop_full_cover (fun _ => emptyMd5) (fun _ _ => ([], ())) .getInstance ()
    (by decide) (by decide) (by decide)

end XChaty.Ftp
