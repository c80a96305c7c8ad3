import XChaty.Ftp.ChunkLoop
import XChaty.Ftp.Packages

/-! Files sent one after the other, from any machines to one.  A file that the sender can open arrives
nowhere, since its package is empty; of one that it cannot open the package says that it has parts,
and unpacking it empties the file of that name.  No transfer brings any content. -/

namespace XChaty.Ftp

open Qt ProofKit

/-! ### Packages one after the other -/

/-- The files that `P` holds of have become empty, and no other has changed. -/
structure Wiped (fs fs' : FileSystem) (P : QString → Prop) : Prop where
  emptied : ∀ name, P name → fs'.contents name = some []
  kept : ∀ name, ¬P name → fs'.contents name = fs.contents name
  readable : fs'.readable = fs.readable
  writable : fs'.writable = fs.writable

/-- A package says that it has parts of a file that can be opened for writing. -/
def Wipes (fs : FileSystem) (packs : List FilePackage) (name : QString) : Prop :=
  fs.writable name = true ∧ ∃ pack ∈ packs, 0 < pack.head.packCount ∧ pack.head.fileName = name

theorem unPackFile_wiped (fs : FileSystem) (pack : FilePackage) :
    Wiped fs (unPackFile fs pack) (Wipes fs [pack]) := by
  obtain ⟨hidle, hsame⟩ | ⟨hopened, hset⟩ := unPackFile_cases fs pack
  · rw [hsame]
    refine ⟨fun name hwipes => ?_, fun _ _ => rfl, rfl, rfl⟩
    obtain ⟨hwrite, _, hmem, hcount, rfl⟩ := hwipes
    obtain rfl := List.mem_singleton.mp hmem
    rcases hidle with hnone | hlocked
    · exact absurd hcount (Int32.not_lt.mpr hnone)
    · rw [hlocked] at hwrite
      cases hwrite
  · rw [not_or] at hopened
    rw [hset]
    refine ⟨fun name hwipes => ?_, fun name hkeeps => ?_, rfl, rfl⟩
    · obtain ⟨-, _, hmem, -, rfl⟩ := hwipes
      obtain rfl := List.mem_singleton.mp hmem
      exact if_pos rfl
    · refine if_neg fun hname => hkeeps ⟨?_, pack, List.mem_singleton_self pack,
        Int32.not_le.mp hopened.1, hname.symm⟩
      rw [hname]
      simpa using hopened.2

/-- Packages that are unpacked one after the other empty the files of their names, and nothing
else. -/
theorem unpacked_wiped (fs : FileSystem) (packs : List FilePackage) :
    Wiped fs (packs.foldl unPackFile fs) (Wipes fs packs) := by
  induction packs generalizing fs with
  | nil =>
    refine ⟨fun name hwipes => ?_, fun _ _ => rfl, rfl, rfl⟩
    obtain ⟨-, pack, hmem, -⟩ := hwipes
    cases hmem
  | cons pack packs ih =>
    have hfirst := unPackFile_wiped fs pack
    have hrest := ih (unPackFile fs pack)
    rw [List.foldl_cons]
    have hlater : ∀ name, Wipes (unPackFile fs pack) packs name ↔ Wipes fs packs name := by
      intro name
      rw [Wipes, hfirst.writable, Wipes]
    have hsplit : ∀ name, Wipes fs (pack :: packs) name ↔
        Wipes fs [pack] name ∨ Wipes fs packs name := by
      intro name
      simp only [Wipes, List.mem_cons, List.not_mem_nil, or_false, exists_eq_or_imp,
        exists_eq_left, ← and_or_left]
    refine ⟨fun name hwipes => ?_, fun name hkeeps => ?_, hrest.readable.trans hfirst.readable,
      hrest.writable.trans hfirst.writable⟩
    · by_cases hwipes' : Wipes fs packs name
      · exact hrest.emptied name ((hlater name).mpr hwipes')
      · rw [hrest.kept name fun h => hwipes' ((hlater name).mp h)]
        exact hfirst.emptied name (((hsplit name).mp hwipes).resolve_right hwipes')
    · rw [hsplit, not_or] at hkeeps
      rw [hrest.kept name fun h => hkeeps.2 ((hlater name).mp h)]
      exact hfirst.kept name hkeeps.1

/-! ### What `PackFile` makes -/

def CanOpen (fs : FileSystem) (fileName : QString) : Prop :=
  (fs.contents fileName).isSome = true ∧ fs.readable fileName = true

theorem openReadOnly_of_not {fs : FileSystem} {fileName : QString} (h : ¬CanOpen fs fileName) :
    (QFile.new fileName).openReadOnly fs = (false, QFile.new fileName) := by
  rw [QFile.openReadOnly, if_neg fun hopen => h hopen.2]

/-- The last chunk is no larger than the chunk size, so one more fits the count. -/
theorem packLoop_pakSize {σ : Type} (md5 : QByteArray → QByteArray)
    (read : σ → Int → QByteArray × σ) (s : PackState σ) :
    (packLoop md5 read s).pak_size ≤ s.pak_size := by
  have hheads := (packing md5 read).heads_invariant (P := fun t => t.pak_size ≤ s.pak_size)
    (fun t t' hround ht => by
      obtain ⟨h, rfl⟩ := packing_round hround
      rw [PackState.next_pakSize]
      exact Int.le_trans (min_le_right _ _) ht) (Int.le_refl s.pak_size)
  rw [packLoop_eq]
  exact hheads _ ((packing md5 read).final_mem_heads s)

/-- A file that cannot be opened has a package that says it has parts. -/
theorem packFile_of_not_canOpen (md5 : QByteArray → QByteArray) {fs : FileSystem}
    {fileName : QString} (h : ¬CanOpen fs fileName) :
    (FileTransportUtilty.getInstance.packFile md5 fs fileName).head.fileName = fileName ∧
      0 < (FileTransportUtilty.getInstance.packFile md5 fs fileName).head.packCount := by
  simp only [FileTransportUtilty.packFile, openReadOnly_of_not h, Bool.not_false, if_true]
  refine ⟨trivial, ?_⟩
  generalize hstart : (PackState.mk _ _ _ _ _ _ _ : PackState QFile) = start
  have hsize : start.pak_size = 100 * 1024 * 1024 := hstart ▸ rfl
  have hle := packLoop_pakSize md5 (fun file maxlen => file.read fs maxlen) start
  have hpos := (packLoop md5 (fun file maxlen => file.read fs maxlen) start).pakSize_pos
  rw [hsize] at hle
  apply Int32.lt_iff_toInt_lt.mpr
  rw [Int32.toInt_ofInt_of_le (by omega) (by omega)]
  change (0 : Int) < _
  omega

theorem packFile_of_canOpen (md5 : QByteArray → QByteArray) {fs : FileSystem} {fileName : QString}
    (h : CanOpen fs fileName) : FileTransportUtilty.getInstance.packFile md5 fs fileName = {} := by
  obtain ⟨content, hcontent⟩ := Option.isSome_iff_exists.mp h.1
  exact packFile_of_readable md5 .getInstance hcontent h.2

/-! ### Transfers -/

/-- A file that is packed where the files are `source`, with the parts of the package as they
arrive. -/
structure Transfer where
  source : FileSystem
  fileName : QString
  subPackList : List SubFilePackage

def Transfer.pack (md5 : QByteArray → QByteArray) (t : Transfer) : FilePackage :=
  { FileTransportUtilty.getInstance.packFile md5 t.source t.fileName with
    subPackList := t.subPackList }

theorem Transfer.pack_count_iff (md5 : QByteArray → QByteArray) (t : Transfer) (name : QString) :
    0 < (t.pack md5).head.packCount ∧ (t.pack md5).head.fileName = name ↔
      t.fileName = name ∧ ¬CanOpen t.source t.fileName := by
  change 0 < (FileTransportUtilty.getInstance.packFile md5 t.source t.fileName).head.packCount ∧
    (FileTransportUtilty.getInstance.packFile md5 t.source t.fileName).head.fileName = name ↔ _
  by_cases hopen : CanOpen t.source t.fileName
  · rw [packFile_of_canOpen md5 hopen]
    exact ⟨fun h => absurd h.1 (by decide), fun h => absurd hopen h.2⟩
  · obtain ⟨hname, hcount⟩ := packFile_of_not_canOpen md5 hopen
    rw [hname]
    exact ⟨fun h => ⟨h.2, hopen⟩, fun h => ⟨hcount, h.1⟩⟩

/-- After any transfers, the files that are different are empty: those that can be opened for writing
and that some sender could not open. -/
theorem transfers_only_wipe (md5 : QByteArray → QByteArray) (target : FileSystem)
    (transfers : List Transfer) :
    Wiped target ((transfers.map (Transfer.pack md5)).foldl unPackFile target) fun name =>
      target.writable name = true ∧ ∃ t ∈ transfers, t.fileName = name ∧ ¬CanOpen t.source name := by
  have hwiped := unpacked_wiped target (transfers.map (Transfer.pack md5))
  have hwipes : Wipes target (transfers.map (Transfer.pack md5)) = fun name =>
      target.writable name = true ∧ ∃ t ∈ transfers, t.fileName = name ∧ ¬CanOpen t.source name := by
    funext name
    refine propext (and_congr_right fun _ => ?_)
    simp only [List.mem_map, exists_exists_and_eq_and, Transfer.pack_count_iff]
    refine exists_congr fun t => and_congr_right fun _ => and_congr_right fun hname => ?_
    rw [hname]
  rwa [hwipes] at hwiped

end XChaty.Ftp
