import Mathlib.Data.Nat.Basic
import XChaty.Hv.Sessions

/-! The load of the worker loops: how many connections each loop has been given, what its
`connectionNum` counts, and how far the test of `max_connections` keeps the map of channels when
several loops are between the test and the addition. -/

namespace XChaty.Hv.TcpServer

open ProofKit

def queuedOn (idx : Nat) (notes : List ServerNote) : Nat :=
  notes.countP fun note => match note with
    | .queued loop _ => loop = idx
    | _ => false

def refusedOn (idx : Nat) (notes : List ServerNote) : Nat :=
  notes.countP fun note => match note with
    | .hio_close loop _ => loop = idx
    | _ => false

/-- The channels that are attached to the loop. -/
def attachedTo (s : TcpServer) (idx : Nat) : Nat :=
  s.channels.countP fun channel => channel.loop = idx

/-! ### Round robin -/

/-- `total` connections have been dealt out to `num` loops, from loop 1 on and round. -/
structure Dealt (num total : Nat) (s : TcpServer) (notes : List ServerNote) : Prop where
  loops : s.loop_threads_.length = num
  next : s.next_loop_idx_ = total % num
  each : ∀ idx < num, queuedOn idx notes =
    total / num + if 1 ≤ idx ∧ idx ≤ total % num then 1 else 0

theorem queuedOn_concat (idx : Nat) (notes : List ServerNote) (loop id : Nat) :
    queuedOn idx (notes ++ [.queued loop id]) =
      queuedOn idx notes + if loop = idx then 1 else 0 := by
  rw [queuedOn, List.countP_append, List.countP_singleton, queuedOn]
  simp only [decide_eq_true_eq]

theorem Dealt.accept {num total : Nat} {s : TcpServer} {notes : List ServerNote} (hnum : 0 < num)
    (h : Dealt num total s notes) (id : Nat) :
    Dealt num (total + 1) (s.onAccept id).1 (notes ++ (s.onAccept id).2) := by
  have hlt := Nat.mod_lt total hnum
  have hsplit := Nat.div_add_mod total num
  have hnext : s.nextLoop = ((total + 1) % num, { s with next_loop_idx_ := (total + 1) % num }) ∧
      (total + 1) / num = total / num + (if total % num + 1 ≥ num then 1 else 0) ∧
      (total + 1) % num = if total % num + 1 ≥ num then 0 else total % num + 1 := by
    rw [nextLoop, h.loops, h.next]
    by_cases hround : total % num + 1 ≥ num
    · have hall : total + 1 = num * (total / num + 1) := by
        rw [Nat.mul_add, Nat.mul_one]
        omega
      rw [if_pos hround, if_pos hround, hall, Nat.mul_mod_right, Nat.zero_mod,
        Nat.mul_div_cancel_left _ hnum]
      exact ⟨rfl, rfl, rfl⟩
    · have hall : total + 1 = num * (total / num) + (total % num + 1) := by omega
      have hmod : (total + 1) % num = total % num + 1 := by
        rw [hall, Nat.mul_add_mod, Nat.mod_eq_of_lt (show total % num + 1 < num by omega)]
      have hdiv : (total + 1) / num = total / num := by
        rw [hall, Nat.mul_add_div hnum, Nat.div_eq_of_lt (show total % num + 1 < num by omega),
          Nat.add_zero]
      rw [if_neg hround, if_neg hround, hmod, hdiv,
        Nat.mod_eq_of_lt (show total % num + 1 < num by omega)]
      exact ⟨rfl, rfl, rfl⟩
  obtain ⟨hloop, hdiv, hmod⟩ := hnext
  rw [onAccept, hloop]
  refine ⟨(List.length_modify ..).trans h.loops, rfl, fun idx hidx => ?_⟩
  rw [queuedOn_concat, h.each idx hidx, hdiv, hmod]
  by_cases hround : total % num + 1 ≥ num
  · simp only [if_pos hround]
    split <;> split <;> split <;> omega
  · simp only [if_neg hround]
    split <;> split <;> split <;> omega

theorem Dealt.same {num total : Nat} {s s' : TcpServer} {notes : List ServerNote}
    (h : Dealt num total s notes) (hloops : s'.loop_threads_.length = s.loop_threads_.length)
    (hnext : s'.next_loop_idx_ = s.next_loop_idx_) {new : List ServerNote}
    (hnew : ∀ idx, queuedOn idx new = 0) : Dealt num total s' (notes ++ new) where
  loops := hloops.trans h.loops
  next := hnext.trans h.next
  each := by
    intro idx hidx
    have hcount := hnew idx
    rw [queuedOn] at hcount
    rw [queuedOn, List.countP_append, hcount, Nat.add_zero]
    exact h.each idx hidx

theorem Change.dealt {num total : Nat} {s s' : TcpServer} {notes new : List ServerNote}
    {event : ServerEvent} (hchange : Change s event s' new) (hnum : 0 < num)
    (h : Dealt num total s notes) :
    Dealt num (total + (accepted [event]).length) s' (notes ++ new) := by
  have hloops := hchange.loops
  cases hchange with
  | idle hevent =>
    rw [hevent]
    exact h.same rfl rfl fun _ => rfl
  | queued id => exact h.accept hnum id
  | refused | admitted | attached | read | closed => exact h.same hloops rfl fun _ => rfl

/-- In every run, loop 1 is given the first connection and every loop the one after its predecessor,
so the loops are given equally many, up to one. -/
theorem round_robin {num : Nat} (hnum : 0 < num) (max : Nat) (events : List ServerEvent) (idx : Nat)
    (hidx : idx < num) :
    queuedOn idx (tcpServer.log ((started num).setMaxConnectionNum max) events) =
      (accepted events).length / num +
        if 1 ≤ idx ∧ idx ≤ (accepted events).length % num then 1 else 0 := by
  have hstart : Dealt num 0 ((started num).setMaxConnectionNum max) [] := by
    refine ⟨List.length_replicate, (Nat.zero_mod num).symm, fun idx _ => ?_⟩
    rw [Nat.zero_div, Nat.zero_mod, if_neg (by omega)]
    rfl
  refine (Machine.run_history (P := fun past s notes => Dealt num (accepted past).length s notes)
    hstart (fun past s notes event h => ?_) events).each idx hidx
  rw [accepted_append, List.length_append]
  exact (step_change s event).dealt hnum h

theorem round_robin_two :
    queuedOn 1 (tcpServer.log ((started 4).setMaxConnectionNum 1) twoConnections) =
      (accepted twoConnections).length / 4 +
        if 1 ≤ 1 ∧ 1 ≤ (accepted twoConnections).length % 4 then 1 else 0 :=
  round_robin (by decide) 1 twoConnections 1 (by decide)

/-! ### `connectionNum` -/

/-- The connections that count for a loop: those that it holds, those that are attached to it, and
those that it has refused, for which `newConnEvent` does not count down. -/
def counted (s : TcpServer) (notes : List ServerNote) (idx : Nat) (loop : WorkerLoop) : Nat :=
  loop.held.length + s.attachedTo idx + refusedOn idx notes

/-- A loop's `connectionNum` is 32 bits of what counts for it. -/
structure Counts (s : TcpServer) (notes : List ServerNote) : Prop where
  loop_lt : ∀ channel ∈ s.channels, channel.loop < s.loop_threads_.length
  connectionNum : ∀ idx loop, s.loop_threads_[idx]? = some loop →
    loop.connectionNum = UInt32.ofNat (s.counted notes idx loop)

theorem refusedOn_concat (idx : Nat) (notes : List ServerNote) (loop id : Nat) :
    refusedOn idx (notes ++ [.hio_close loop id]) =
      refusedOn idx notes + if loop = idx then 1 else 0 := by
  rw [refusedOn, List.countP_append, List.countP_singleton, refusedOn]
  simp only [decide_eq_true_eq]

theorem refusedOn_append {idx : Nat} {new : List ServerNote} (hnew : refusedOn idx new = 0)
    (notes : List ServerNote) : refusedOn idx (notes ++ new) = refusedOn idx notes := by
  rw [refusedOn] at hnew
  rw [refusedOn, List.countP_append, hnew]
  rfl

theorem attachedTo_closed {s : TcpServer} (hnodup : s.inHand.Nodup) {channel : ServerChannel}
    (hchannel : channel ∈ s.channels) (idx : Nat) :
    s.attachedTo idx =
      (s.removeChannel channel.id).attachedTo idx + if channel.loop = idx then 1 else 0 := by
  have hperm := perm_cons_filter_ne (List.nodup_append.mp hnodup).2.1 hchannel
  rw [attachedTo, hperm.countP_eq, List.countP_cons]
  simp only [decide_eq_true_eq]
  rfl

section Counts

variable {s : TcpServer} {notes : List ServerNote}

/-- A step that keeps the channels in their loops and what counts for every loop, up to what it adds
to the counter. -/
theorem Counts.modify (h : Counts s notes) {s' : TcpServer} {new : List ServerNote} (idx : Nat)
    (f : WorkerLoop → WorkerLoop) (hloops : s'.loop_threads_ = s.loop_threads_.modify idx f)
    (hchannels : ∀ channel ∈ s'.channels, channel.loop < s.loop_threads_.length)
    (hidx : ∀ row, s.loop_threads_[idx]? = some row →
      row.connectionNum = UInt32.ofNat (s.counted notes idx row) →
      (f row).connectionNum = UInt32.ofNat (s'.counted (notes ++ new) idx (f row)))
    (hother : ∀ i row, i ≠ idx → s'.counted (notes ++ new) i row = s.counted notes i row) :
    Counts s' (notes ++ new) where
  loop_lt := by
    rw [hloops, List.length_modify]
    exact hchannels
  connectionNum := by
    intro i loop hloop
    rw [hloops, List.getElem?_modify] at hloop
    obtain ⟨row, hrow, rfl⟩ := Option.map_eq_some_iff.mp hloop
    by_cases heq : idx = i
    · subst heq
      rw [if_pos rfl]
      exact hidx row hrow (h.connectionNum idx row hrow)
    · rw [if_neg heq, hother i row (Ne.symm heq)]
      exact h.connectionNum i row hrow

theorem ofNat_succ_sub (n : Nat) : UInt32.ofNat (n + 1) - 1 = UInt32.ofNat n := by
  rw [UInt32.ofNat_add]
  exact UInt32.add_sub_cancel _ _

theorem Counts.queued (h : Counts s notes) (id : Nat) :
    Counts (s.onAccept id).1 (notes ++ (s.onAccept id).2) := by
  have hnone : ∀ i, refusedOn i (notes ++ (s.onAccept id).2) = refusedOn i notes :=
    fun i => refusedOn_append rfl notes
  refine h.modify s.nextLoop.1 _ rfl h.loop_lt (fun row _ hcount => ?_) fun i row _ => ?_
  · have hone : (s.onAccept id).1.counted (notes ++ (s.onAccept id).2) s.nextLoop.1
        { row with
          connectionNum := row.connectionNum + 1
          customEvents := row.customEvents ++ [id] } =
        s.counted notes s.nextLoop.1 row + 1 := by
      rw [counted, counted, hnone, WorkerLoop.held, WorkerLoop.held, List.length_append,
        List.length_append, List.length_append, List.length_singleton]
      change row.connio.toList.length + (row.customEvents.length + 1) + s.attachedTo _ + _ = _
      omega
    rw [hone, UInt32.ofNat_add, ← hcount]
    rfl
  · rw [counted, hnone]
    rfl

theorem Counts.refused (h : Counts s notes) {idx id : Nat} {connectionNum : UInt32}
    {customEvents : List Nat}
    (hloop : s.loop_threads_[idx]? = some ⟨connectionNum, id :: customEvents, none⟩) :
    Counts (s.modifyLoop idx fun _ => ⟨connectionNum, customEvents, none⟩)
      (notes ++ [.hio_close idx id]) := by
  refine h.modify idx _ rfl h.loop_lt (fun row hrow hcount => ?_) fun i row hne => ?_
  · rw [hloop] at hrow
    obtain rfl := Option.some.inj hrow
    refine hcount.trans (congrArg UInt32.ofNat ?_)
    rw [counted, counted, refusedOn_concat, if_pos rfl]
    change customEvents.length + 1 + s.attachedTo idx + _ =
      customEvents.length + s.attachedTo idx + _
    omega
  · rw [counted, counted, refusedOn_concat, if_neg (Ne.symm hne), Nat.add_zero]
    rfl

theorem Counts.admitted (h : Counts s notes) {idx id : Nat} {connectionNum : UInt32}
    {customEvents : List Nat}
    (hloop : s.loop_threads_[idx]? = some ⟨connectionNum, id :: customEvents, none⟩) :
    Counts (s.modifyLoop idx fun _ => ⟨connectionNum, customEvents, some id⟩) (notes ++ []) := by
  refine h.modify idx _ rfl h.loop_lt (fun row hrow hcount => ?_) fun i row _ => ?_
  · rw [hloop] at hrow
    obtain rfl := Option.some.inj hrow
    rw [List.append_nil]
    exact hcount
  · rw [List.append_nil]
    rfl

theorem Counts.attach (h : Counts s notes) (hplaced : Placed s) {idx id : Nat} {loop : WorkerLoop}
    (hloop : s.loop_threads_[idx]? = some loop) (hconnio : loop.connio = some id) :
    Counts ((s.modifyLoop idx fun loop => { loop with connio := none }).addChannel
      ⟨id, idx, .connected⟩) (notes ++ [.onConnection idx id true]) := by
  obtain ⟨-, hfilter⟩ := inHand_attached hplaced.nodup hloop hconnio ⟨id, idx, .connected⟩ rfl
  have hattached : ∀ i, ((s.modifyLoop idx fun loop => { loop with connio := none }).addChannel
      ⟨id, idx, .connected⟩).attachedTo i = s.attachedTo i + if idx = i then 1 else 0 := by
    intro i
    change (s.channels.filter _ ++ [_]).countP _ = _
    rw [hfilter, List.countP_append, List.countP_singleton]
    simp only [decide_eq_true_eq]
    rfl
  have hnone : ∀ i, refusedOn i (notes ++ [.onConnection idx id true]) = refusedOn i notes :=
    fun i => refusedOn_append rfl notes
  refine h.modify idx _ rfl ?_ (fun row hrow hcount => ?_) fun i row hne => ?_
  · intro channel hchannel
    rcases List.mem_append.mp hchannel with hold | hnew
    · exact h.loop_lt channel (List.mem_of_mem_filter hold)
    · rw [List.mem_singleton.mp hnew]
      exact (List.getElem?_eq_some_iff.mp hloop).1
  · rw [hloop] at hrow
    obtain rfl := Option.some.inj hrow
    refine hcount.trans (congrArg UInt32.ofNat ?_)
    rw [counted, counted, hnone, hattached, if_pos rfl, WorkerLoop.held, WorkerLoop.held, hconnio,
      List.length_append, List.length_append]
    change 1 + loop.customEvents.length + _ + _ = 0 + loop.customEvents.length + _ + _
    omega
  · rw [counted, counted, hnone, hattached, if_neg (Ne.symm hne), Nat.add_zero]

theorem Counts.read (h : Counts s notes) (channel : ServerChannel) (buf : List UInt8) :
    Counts s (notes ++ [.onMessage channel.loop channel.id buf]) where
  loop_lt := h.loop_lt
  connectionNum := by
    intro idx loop hloop
    rw [counted, refusedOn_append rfl]
    exact h.connectionNum idx loop hloop

theorem Counts.close (h : Counts s notes) (hplaced : Placed s) {channel : ServerChannel}
    (hchannel : channel ∈ s.channels) :
    Counts ((s.modifyLoop channel.loop fun loop =>
        { loop with connectionNum := loop.connectionNum - 1 }).removeChannel channel.id)
      (notes ++ [.onConnection channel.loop channel.id false]) := by
  have hattached := attachedTo_closed hplaced.nodup hchannel
  have hnone : ∀ i, refusedOn i (notes ++ [.onConnection channel.loop channel.id false]) =
      refusedOn i notes := fun i => refusedOn_append rfl notes
  refine h.modify channel.loop _ rfl ?_ (fun row hrow hcount => ?_) fun i row hne => ?_
  · exact fun c hc => h.loop_lt c (List.mem_of_mem_filter hc)
  · have hone : s.counted notes channel.loop row =
        row.held.length + (s.removeChannel channel.id).attachedTo channel.loop +
          refusedOn channel.loop notes + 1 := by
      rw [counted, hattached, if_pos rfl]
      omega
    rw [hone] at hcount
    change row.connectionNum - 1 = _
    rw [hcount, counted, hnone]
    exact ofNat_succ_sub _
  · rw [counted, counted, hnone, hattached, if_neg (Ne.symm hne), Nat.add_zero]
    rfl

theorem Change.counts {s' : TcpServer} {new : List ServerNote} {event : ServerEvent}
    (hchange : Change s event s' new) (hplaced : Placed s) (h : Counts s notes) :
    Counts s' (notes ++ new) := by
  cases hchange with
  | idle =>
    rw [List.append_nil]
    exact h
  | queued id => exact h.queued id
  | refused hloop => exact h.refused hloop
  | admitted hloop => exact h.admitted hloop
  | attached hloop hconnio => exact h.attach hplaced hloop hconnio
  | @read channel _ buf => exact h.read channel buf
  | closed hchannel => exact h.close hplaced hchannel

end Counts

/-- In every run, `connectionNum` of a loop is the number of the connections that it holds or that
are attached to it, and of those that it has refused. -/
theorem loads_counted {num : Nat} (hnum : 0 < num) (max : Nat) (events : List ServerEvent)
    (hunique : (accepted events).Nodup) :
    Counts (tcpServer.run ((started num).setMaxConnectionNum max) events)
      (tcpServer.log ((started num).setMaxConnectionNum max) events) := by
  have hstart : Counts ((started num).setMaxConnectionNum max) [] := by
    refine ⟨fun channel hchannel => absurd hchannel List.not_mem_nil, fun idx loop hloop => ?_⟩
    rw [List.eq_of_mem_replicate (List.mem_of_getElem? hloop)]
    rfl
  have hrun := Machine.run_history (M := tcpServer) (s := (started num).setMaxConnectionNum max)
    (P := fun past s notes => (accepted past).Nodup → Kept past s notes ∧ Counts s notes)
    (fun _ => ⟨kept_started hnum max, hstart⟩) (fun past s notes event hpast hunique => ?_) events
  · exact (hrun hunique).2
  · have hbefore := hunique
    rw [accepted_append] at hbefore
    obtain ⟨hkept, hcounts⟩ := hpast (List.nodup_append.mp hbefore).1
    exact ⟨hkept.step hunique, (step_change s event).counts hkept.placed hcounts⟩

theorem loads_counted_two :
    Counts (tcpServer.run ((started 4).setMaxConnectionNum 1) twoConnections)
      (tcpServer.log ((started 4).setMaxConnectionNum 1) twoConnections) :=
  loads_counted (by decide) 1 twoConnections (by decide)

/-- A refused connection still counts for its loop when nothing is left of it. -/
example : ((tcpServer.run ((started 4).setMaxConnectionNum 1) twoConnections).loop_threads_.map
    WorkerLoop.connectionNum) = [0, 0, 1, 0] := by decide

/-! ### `max_connections` -/

/-- The channels, with those that are about to be added. -/
def Bounded (max num : Nat) (s : TcpServer) : Prop :=
  s.loop_threads_.length = num ∧ s.max_connections = max ∧
    s.channels.length + s.attaching.length ≤ max + (num - 1)

theorem attaching_le (s : TcpServer) : s.attaching.length ≤ s.loop_threads_.length := by
  refine length_flatMap_le (fun loop => ?_) s.loop_threads_
  cases loop.connio with
  | none => exact Nat.zero_le 1
  | some id => exact Nat.le_refl 1

theorem Change.bounded {max num : Nat} {s s' : TcpServer} {event : ServerEvent}
    {new : List ServerNote} (hchange : Change s event s' new) (h : Bounded max num s) :
    Bounded max num s' := by
  obtain ⟨hnum, hmax, hbound⟩ := h
  refine ⟨hchange.loops.trans hnum, ?_⟩
  cases hchange with
  | idle | read => exact ⟨hmax, hbound⟩
  | queued id =>
    refine ⟨hmax, ?_⟩
    have hsame : (s.onAccept id).1.attaching = s.attaching :=
      flatMap_modify_eq _ _ _ _ fun _ _ => rfl
    change s.channels.length + (s.onAccept id).1.attaching.length ≤ _
    rw [hsame]
    exact hbound
  | @refused idx id connectionNum customEvents hloop =>
    refine ⟨hmax, ?_⟩
    have hsame : (s.modifyLoop idx fun _ => ⟨connectionNum, customEvents, none⟩).attaching =
        s.attaching := flatMap_modify_eq _ _ _ _ fun row hrow => by
      rw [hloop] at hrow
      rw [← Option.some.inj hrow]
    change s.channels.length + (s.modifyLoop idx _).attaching.length ≤ _
    rw [hsame]
    exact hbound
  | @admitted idx id connectionNum customEvents hloop htest =>
    refine ⟨hmax, ?_⟩
    have hone : (s.modifyLoop idx fun _ => ⟨connectionNum, customEvents, some id⟩).attaching.Perm
        (id :: s.attaching) :=
      flatMap_modify_perm _ _ [] [id] hloop (List.Perm.refl _)
    have hlength := hone.length_eq
    have hle := attaching_le (s.modifyLoop idx fun _ => ⟨connectionNum, customEvents, some id⟩)
    rw [modifyLoop, List.length_modify, hnum] at hle
    change s.channels.length + (s.modifyLoop idx _).attaching.length ≤ _
    rw [List.length_cons] at hlength
    rw [hmax] at htest
    change s.channels.length < max at htest
    rw [modifyLoop] at hlength ⊢
    omega
  | @attached idx id loop hloop hconnio =>
    refine ⟨hmax, ?_⟩
    have hone : (id :: (s.modifyLoop idx fun loop => { loop with connio := none }).attaching).Perm
        s.attaching := by
      refine flatMap_modify_perm _ _ [id] [] hloop ?_
      rw [hconnio]
      exact List.Perm.refl _
    have hlength := hone.length_eq
    have hle := List.length_filter_le (fun c => decide (c.id ≠ id)) s.channels
    rw [List.length_cons] at hlength
    change (s.channels.filter (fun c : ServerChannel => decide (c.id ≠ id)) ++ [_]).length +
      (s.modifyLoop idx _).attaching.length ≤ _
    rw [List.length_append, List.length_singleton]
    omega
  | @closed channel hchannel =>
    refine ⟨hmax, ?_⟩
    have hsame : (s.modifyLoop channel.loop fun loop =>
        { loop with connectionNum := loop.connectionNum - 1 }).attaching = s.attaching :=
      flatMap_modify_eq _ _ _ _ fun _ _ => rfl
    have hle := List.length_filter_le (fun c => decide (c.id ≠ channel.id)) s.channels
    change (s.channels.filter _).length + (s.modifyLoop channel.loop _).attaching.length ≤ _
    rw [hsame]
    omega

/-- In every run, the map holds at most `max_connections` channels and one more for each loop but
one. -/
theorem channels_bounded (num max : Nat) (events : List ServerEvent) :
    (tcpServer.run ((started num).setMaxConnectionNum max) events).connectionNum ≤
      max + (num - 1) := by
  have hstart : Bounded max num ((started num).setMaxConnectionNum max) := by
    refine ⟨List.length_replicate, rfl, ?_⟩
    have hnone : ((started num).setMaxConnectionNum max).attaching = [] :=
      List.flatMap_eq_nil_iff.mpr fun loop hloop => by
        rw [List.eq_of_mem_replicate hloop]
        rfl
    rw [hnone]
    exact Nat.zero_le _
  have hrun : Bounded max num (tcpServer.run ((started num).setMaxConnectionNum max) events) :=
    Machine.run_invariant hstart fun s event _ h => (step_change s event).bounded h
  exact Nat.le_trans (Nat.le_add_right _ _) hrun.2.2

/-- Four loops can all be past the test for the last free place. -/
example : (tcpServer.run ((started 4).setMaxConnectionNum 1)
    [.onAccept 1, .onAccept 2, .onAccept 3, .onAccept 4, .onCustomEvent 0, .onCustomEvent 1,
      .onCustomEvent 2, .onCustomEvent 3, .attach 0, .attach 1, .attach 2, .attach 3]).connectionNum =
    4 := by decide

end XChaty.Hv.TcpServer
