import XChaty.Hv.TcpServer

/-! Runs of `hv::TcpServer`.  When every accepted connection has an id of its own, what is done to
it is one session on one loop; and whatever happens to the connections afterwards, the loops are
given equally many of them. -/

namespace XChaty.Hv.TcpServer

open ProofKit

/-- What is done to one connection. -/
def notesOf (id : Nat) (notes : List ServerNote) : List ServerNote :=
  notes.filter fun note => note.id = id

/-- A connection that has been attached to the loop and has sent the buffers. -/
def opened (loop id : Nat) (bufs : List (List UInt8)) : List ServerNote :=
  [.queued loop id, .onConnection loop id true] ++ bufs.map (.onMessage loop id)

inductive Ended (id : Nat) : List ServerNote → Prop
  | refused (loop : Nat) : Ended id [.queued loop id, .hio_close loop id]
  | closed (loop : Nat) (bufs : List (List UInt8)) :
    Ended id (opened loop id bufs ++ [.onConnection loop id false])

/-- Every connection has its session, as far as it has come: it waits on the loop that it was given
to, or it is a channel there, or its session has ended or not begun. -/
structure Sessions (s : TcpServer) (notes : List ServerNote) : Prop where
  waiting : ∀ idx loop, s.loop_threads_[idx]? = some loop → ∀ id ∈ loop.held,
    notesOf id notes = [.queued idx id]
  attached : ∀ channel ∈ s.channels, channel.status = .connected ∧
    ∃ bufs, notesOf channel.id notes = opened channel.loop channel.id bufs
  gone : ∀ id, id ∉ s.inHand → notesOf id notes = [] ∨ Ended id (notesOf id notes)

theorem notesOf_append (id : Nat) (notes more : List ServerNote) :
    notesOf id (notes ++ more) = notesOf id notes ++ notesOf id more :=
  List.filter_append notes more

theorem notesOf_concat_self (notes : List ServerNote) (note : ServerNote) :
    notesOf note.id (notes ++ [note]) = notesOf note.id notes ++ [note] := by
  have hself : notesOf note.id [note] = [note] := by simp [notesOf]
  rw [notesOf_append, hself]

theorem notesOf_concat_ne {id : Nat} {note : ServerNote} (h : id ≠ note.id)
    (notes : List ServerNote) : notesOf id (notes ++ [note]) = notesOf id notes := by
  have hother : notesOf id [note] = [] := by simp [notesOf, Ne.symm h]
  rw [notesOf_append, hother, List.append_nil]

theorem accepted_append (events more : List ServerEvent) :
    accepted (events ++ more) = accepted events ++ accepted more :=
  List.filterMap_append

theorem loop_modifyLoop {s : TcpServer} {idx i : Nat} {f : WorkerLoop → WorkerLoop}
    {loop : WorkerLoop} (h : (s.modifyLoop idx f).loop_threads_[i]? = some loop) :
    ∃ row, s.loop_threads_[i]? = some row ∧ loop = if idx = i then f row else row := by
  rw [modifyLoop, List.getElem?_modify] at h
  obtain ⟨row, hrow, hloop⟩ := Option.map_eq_some_iff.mp h
  exact ⟨row, hrow, hloop.symm⟩

/-- The loops hold no connection twice, and a loop that an index names exists. -/
structure Placed (s : TcpServer) : Prop where
  loops : 0 < s.loop_threads_.length
  nodup : s.inHand.Nodup

section Steps

variable {s : TcpServer} {notes : List ServerNote}

theorem Sessions.queued (hs : Sessions s notes) (hplaced : Placed s) {id : Nat}
    (hfresh : id ∉ s.inHand) (hsilent : notesOf id notes = []) :
    Sessions (s.nextLoop.2.modifyLoop s.nextLoop.1 fun loop =>
      { loop with
        connectionNum := loop.connectionNum + 1
        customEvents := loop.customEvents ++ [id] }) (notes ++ [.queued s.nextLoop.1 id]) := by
  have hidx : s.nextLoop.1 < s.nextLoop.2.loop_threads_.length := nextLoop_lt hplaced.loops
  have hwaiting := waiting_queued hidx id
  have hother : ∀ id', id' ∈ s.inHand →
      notesOf id' (notes ++ [.queued s.nextLoop.1 id]) = notesOf id' notes := fun id' hid' =>
    notesOf_concat_ne (fun heq : id' = id => hfresh (heq ▸ hid')) notes
  have hself : notesOf id (notes ++ [.queued s.nextLoop.1 id]) = [.queued s.nextLoop.1 id] := by
    have h := notesOf_concat_self notes (.queued s.nextLoop.1 id)
    rw [ServerNote.id, hsilent] at h
    exact h
  constructor
  case waiting =>
    intro i loop hloop id' hid'
    obtain ⟨row, hrow, rfl⟩ := loop_modifyLoop hloop
    have hold : id' ∈ row.held → notesOf id' (notes ++ [.queued s.nextLoop.1 id]) =
        [.queued i id'] := fun hmem => by
      rw [hother id' (List.mem_append_left _ (mem_waiting hrow hmem))]
      exact hs.waiting i row hrow id' hmem
    by_cases hidx : s.nextLoop.1 = i
    · rw [if_pos hidx] at hid'
      rcases List.mem_append.mp hid' with hconnio | hevent
      · exact hold (List.mem_append_left _ hconnio)
      · rcases List.mem_append.mp hevent with hbefore | hnew
        · exact hold (List.mem_append_right _ hbefore)
        · rw [List.mem_singleton.mp hnew, hself, hidx]
    · rw [if_neg hidx] at hid'
      exact hold hid'
  case attached =>
    intro channel hchannel
    rw [hother channel.id (List.mem_append_right _ (List.mem_map_of_mem hchannel))]
    exact hs.attached channel hchannel
  case gone =>
    intro id' hid'
    have hne : id' ≠ id := by
      rintro rfl
      exact hid' (List.mem_append_left _ (hwaiting.mem_iff.mpr List.mem_cons_self))
    rw [show notesOf id' (notes ++ [.queued s.nextLoop.1 id]) = notesOf id' notes from
      notesOf_concat_ne hne notes]
    refine hs.gone id' fun hmem => hid' ?_
    rcases List.mem_append.mp hmem with hwait | hchannel
    · exact List.mem_append_left _ (hwaiting.mem_iff.mpr (List.mem_cons_of_mem id hwait))
    · exact List.mem_append_right _ hchannel

theorem Sessions.refused (hs : Sessions s notes) (hplaced : Placed s) {idx id : Nat}
    {connectionNum : UInt32} {customEvents : List Nat}
    (hloop : s.loop_threads_[idx]? = some ⟨connectionNum, id :: customEvents, none⟩) :
    Sessions (s.modifyLoop idx fun _ => ⟨connectionNum, customEvents, none⟩)
      (notes ++ [.hio_close idx id]) := by
  have hwaiting := waiting_refused hloop
  have hinHand : s.inHand.Perm
      (id :: (s.modifyLoop idx fun _ => ⟨connectionNum, customEvents, none⟩).inHand) :=
    (hwaiting.append_right _).symm
  have hfresh := (List.nodup_cons.mp (hinHand.nodup_iff.mp hplaced.nodup)).1
  have hqueued := hs.waiting idx _ hloop id List.mem_cons_self
  have hother : ∀ id' ≠ id, notesOf id' (notes ++ [.hio_close idx id]) = notesOf id' notes :=
    fun id' hne => notesOf_concat_ne hne notes
  constructor
  case waiting =>
    intro i loop hrow id' hid'
    have hne : id' ≠ id := fun heq => hfresh (List.mem_append_left _
      (heq ▸ mem_waiting hrow hid'))
    rw [hother id' hne]
    obtain ⟨row, hrow', rfl⟩ := loop_modifyLoop hrow
    refine hs.waiting i row hrow' id' ?_
    by_cases hidx : idx = i
    · subst hidx
      rw [hloop] at hrow'
      obtain rfl := Option.some.inj hrow'
      rw [if_pos rfl] at hid'
      exact List.mem_cons_of_mem id hid'
    · rwa [if_neg hidx] at hid'
  case attached =>
    intro channel hchannel
    have hne : channel.id ≠ id := fun heq => hfresh (List.mem_append_right _
      (heq ▸ List.mem_map_of_mem hchannel))
    rw [hother channel.id hne]
    exact hs.attached channel hchannel
  case gone =>
    intro id' hid'
    by_cases heq : id' = id
    · subst heq
      have hself := notesOf_concat_self notes (.hio_close idx id')
      rw [ServerNote.id, hqueued] at hself
      exact .inr (hself ▸ .refused idx)
    · rw [hother id' heq]
      refine hs.gone id' fun hmem => hid' ?_
      exact (List.mem_cons.mp (hinHand.mem_iff.mp hmem)).resolve_left heq

theorem Sessions.admitted (hs : Sessions s notes) {idx id : Nat} {connectionNum : UInt32}
    {customEvents : List Nat}
    (hloop : s.loop_threads_[idx]? = some ⟨connectionNum, id :: customEvents, none⟩) :
    Sessions (s.modifyLoop idx fun _ => ⟨connectionNum, customEvents, some id⟩) notes where
  waiting := by
    intro i loop hrow id' hid'
    obtain ⟨row, hrow', rfl⟩ := loop_modifyLoop hrow
    refine hs.waiting i row hrow' id' ?_
    by_cases hidx : idx = i
    · subst hidx
      rw [hloop] at hrow'
      obtain rfl := Option.some.inj hrow'
      rwa [if_pos rfl] at hid'
    · rwa [if_neg hidx] at hid'
  attached := hs.attached
  gone := by
    intro id' hid'
    refine hs.gone id' fun hmem => hid' ?_
    rw [inHand, waiting_admitted hloop]
    exact hmem

theorem Sessions.attach (hs : Sessions s notes) (hplaced : Placed s) {idx id : Nat}
    {loop : WorkerLoop} (hloop : s.loop_threads_[idx]? = some loop)
    (hconnio : loop.connio = some id) :
    Sessions ((s.modifyLoop idx fun loop => { loop with connio := none }).addChannel
      ⟨id, idx, .connected⟩) (notes ++ [.onConnection idx id true]) := by
  obtain ⟨hinHand, hfilter⟩ := inHand_attached hplaced.nodup hloop hconnio ⟨id, idx, .connected⟩ rfl
  have hwaiting := waiting_attached hloop hconnio
  have hheld : id ∈ loop.held := by
    rw [WorkerLoop.held, hconnio]
    exact List.mem_cons_self
  have hqueued := hs.waiting idx loop hloop id hheld
  have hfresh := (List.nodup_cons.mp (hwaiting.nodup_iff.mpr
    (List.nodup_append.mp hplaced.nodup).1)).1
  have hother : ∀ id' ≠ id, notesOf id' (notes ++ [.onConnection idx id true]) =
      notesOf id' notes := fun id' hne => notesOf_concat_ne hne notes
  have hself : notesOf id (notes ++ [.onConnection idx id true]) = opened idx id [] := by
    have h := notesOf_concat_self notes (.onConnection idx id true)
    rw [ServerNote.id, hqueued] at h
    exact h
  constructor
  case waiting =>
    intro i loop' hrow id' hid'
    have hne : id' ≠ id := fun heq => hfresh (heq ▸ mem_waiting hrow hid')
    rw [hother id' hne]
    obtain ⟨row, hrow', rfl⟩ := loop_modifyLoop hrow
    refine hs.waiting i row hrow' id' ?_
    by_cases hidx : idx = i
    · rw [if_pos hidx] at hid'
      exact List.mem_append_right _ hid'
    · rwa [if_neg hidx] at hid'
  case attached =>
    intro channel hchannel
    rcases List.mem_append.mp hchannel with hold | hnew
    · obtain ⟨hmem, hne⟩ := List.mem_filter.mp hold
      rw [hother channel.id (of_decide_eq_true hne)]
      exact hs.attached channel hmem
    · obtain rfl := List.mem_singleton.mp hnew
      exact ⟨rfl, [], hself⟩
  case gone =>
    intro id' hid'
    have hold : id' ∉ s.inHand := fun hmem => hid' (hinHand.mem_iff.mpr hmem)
    have hne : id' ≠ id := fun heq =>
      hold (List.mem_append_left _ (heq ▸ mem_waiting hloop hheld))
    rw [hother id' hne]
    exact hs.gone id' hold

theorem Sessions.read (hs : Sessions s notes) (hplaced : Placed s) {channel : ServerChannel}
    (hchannel : channel ∈ s.channels) (buf : List UInt8) :
    Sessions s (notes ++ [.onMessage channel.loop channel.id buf]) := by
  have hids := List.nodup_append.mp hplaced.nodup
  have hother : ∀ id' ≠ channel.id, notesOf id' (notes ++ [.onMessage channel.loop channel.id buf]) =
      notesOf id' notes := fun id' hne => notesOf_concat_ne hne notes
  constructor
  case waiting =>
    intro i loop hloop id' hid'
    have hne : id' ≠ channel.id :=
      hids.2.2 id' (mem_waiting hloop hid') channel.id (List.mem_map_of_mem hchannel)
    rw [hother id' hne]
    exact hs.waiting i loop hloop id' hid'
  case attached =>
    intro channel' hchannel'
    by_cases heq : channel'.id = channel.id
    · obtain rfl := List.inj_on_of_nodup_map hids.2.1 hchannel' hchannel heq
      obtain ⟨hstatus, bufs, hbufs⟩ := hs.attached channel' hchannel'
      refine ⟨hstatus, bufs ++ [buf], ?_⟩
      have hself := notesOf_concat_self notes (.onMessage channel'.loop channel'.id buf)
      rw [ServerNote.id, hbufs] at hself
      rw [hself, opened, opened, List.map_append, List.append_assoc]
      rfl
    · rw [hother channel'.id heq]
      exact hs.attached channel' hchannel'
  case gone =>
    intro id' hid'
    have hne : id' ≠ channel.id := fun heq =>
      hid' (List.mem_append_right _ (heq ▸ List.mem_map_of_mem hchannel))
    rw [hother id' hne]
    exact hs.gone id' hid'

theorem Sessions.close (hs : Sessions s notes) (hplaced : Placed s) {channel : ServerChannel}
    (hchannel : channel ∈ s.channels) :
    Sessions ((s.modifyLoop channel.loop fun loop =>
        { loop with connectionNum := loop.connectionNum - 1 }).removeChannel channel.id)
      (notes ++ [.onConnection channel.loop channel.id false]) := by
  have hids := List.nodup_append.mp hplaced.nodup
  have hinHand := inHand_closed hplaced.nodup hchannel
  have hother : ∀ id' ≠ channel.id,
      notesOf id' (notes ++ [.onConnection channel.loop channel.id false]) = notesOf id' notes :=
    fun id' hne => notesOf_concat_ne hne notes
  constructor
  case waiting =>
    intro i loop hrow id' hid'
    obtain ⟨row, hrow', rfl⟩ := loop_modifyLoop hrow
    have hheld : id' ∈ row.held := by
      by_cases hidx : channel.loop = i
      · rwa [if_pos hidx] at hid'
      · rwa [if_neg hidx] at hid'
    have hne : id' ≠ channel.id :=
      hids.2.2 id' (mem_waiting hrow' hheld) channel.id (List.mem_map_of_mem hchannel)
    rw [hother id' hne]
    exact hs.waiting i row hrow' id' hheld
  case attached =>
    intro channel' hchannel'
    obtain ⟨hmem, hne⟩ := List.mem_filter.mp hchannel'
    rw [hother channel'.id (of_decide_eq_true hne)]
    exact hs.attached channel' hmem
  case gone =>
    intro id' hid'
    by_cases heq : id' = channel.id
    · subst heq
      obtain ⟨-, bufs, hbufs⟩ := hs.attached channel hchannel
      have hself := notesOf_concat_self notes (.onConnection channel.loop channel.id false)
      rw [ServerNote.id, hbufs] at hself
      exact .inr (hself ▸ .closed channel.loop bufs)
    · rw [hother id' heq]
      refine hs.gone id' fun hmem => hid' ?_
      exact (List.mem_cons.mp (hinHand.mem_iff.mp hmem)).resolve_left heq

/-! ### Every step keeps the sessions -/

theorem Change.inHand {event : ServerEvent} {s' : TcpServer} {new : List ServerNote}
    (hchange : Change s event s' new) (hplaced : Placed s) :
    (∃ id, event = .onAccept id ∧ s'.inHand.Perm (id :: s.inHand)) ∨ s'.inHand.Perm s.inHand ∨
      ∃ id, s.inHand.Perm (id :: s'.inHand) := by
  cases hchange with
  | idle => exact .inr (.inl (List.Perm.refl _))
  | queued id =>
    have hidx : s.nextLoop.1 < s.nextLoop.2.loop_threads_.length := nextLoop_lt hplaced.loops
    exact .inl ⟨id, rfl, (waiting_queued hidx id).append_right _⟩
  | refused hloop => exact .inr (.inr ⟨_, ((waiting_refused hloop).append_right _).symm⟩)
  | admitted hloop =>
    refine .inr (.inl ?_)
    rw [TcpServer.inHand, waiting_admitted hloop]
    exact List.Perm.refl _
  | attached hloop hconnio =>
    exact .inr (.inl (inHand_attached hplaced.nodup hloop hconnio ⟨_, _, .connected⟩ rfl).1)
  | read => exact .inr (.inl (List.Perm.refl _))
  | closed hchannel => exact .inr (.inr ⟨_, inHand_closed hplaced.nodup hchannel⟩)

theorem Change.loops {event : ServerEvent} {s' : TcpServer} {new : List ServerNote}
    (hchange : Change s event s' new) : s'.loop_threads_.length = s.loop_threads_.length := by
  cases hchange with
  | idle | read => rfl
  | queued | refused | admitted | attached | closed => exact List.length_modify ..

theorem Change.placed {event : ServerEvent} {s' : TcpServer} {new : List ServerNote}
    (hchange : Change s event s' new) (hplaced : Placed s)
    (hfresh : ∀ id, event = .onAccept id → id ∉ s.inHand) : Placed s' where
  loops := hchange.loops ▸ hplaced.loops
  nodup := by
    obtain ⟨id, hevent, hperm⟩ | hperm | ⟨id, hperm⟩ := hchange.inHand hplaced
    · exact hperm.nodup_iff.mpr (List.nodup_cons.mpr ⟨hfresh id hevent, hplaced.nodup⟩)
    · exact hperm.nodup_iff.mpr hplaced.nodup
    · exact (List.nodup_cons.mp (hperm.nodup_iff.mp hplaced.nodup)).2

theorem Change.note_id {event : ServerEvent} {s' : TcpServer} {new : List ServerNote}
    (hchange : Change s event s' new) {note : ServerNote} (hnote : note ∈ new) :
    note.id ∈ s.inHand ∨ event = .onAccept note.id := by
  cases hchange with
  | idle | admitted => cases hnote
  | queued id =>
    obtain rfl := List.mem_singleton.mp hnote
    exact .inr rfl
  | refused hloop =>
    obtain rfl := List.mem_singleton.mp hnote
    exact .inl (List.mem_append_left _ (mem_waiting hloop List.mem_cons_self))
  | @attached idx id loop hloop hconnio =>
    obtain rfl := List.mem_singleton.mp hnote
    have hheld : id ∈ loop.held := by
      rw [WorkerLoop.held, hconnio]
      exact List.mem_cons_self
    exact .inl (List.mem_append_left _ (mem_waiting hloop hheld))
  | read hchannel =>
    obtain rfl := List.mem_singleton.mp hnote
    exact .inl (List.mem_append_right _ (List.mem_map_of_mem hchannel))
  | closed hchannel =>
    obtain rfl := List.mem_singleton.mp hnote
    exact .inl (List.mem_append_right _ (List.mem_map_of_mem hchannel))

theorem Change.sessions {event : ServerEvent} {s' : TcpServer} {new : List ServerNote}
    (hchange : Change s event s' new) (hplaced : Placed s) (hs : Sessions s notes)
    (hfresh : ∀ id, event = .onAccept id → id ∉ s.inHand ∧ notesOf id notes = []) :
    Sessions s' (notes ++ new) := by
  cases hchange with
  | idle =>
    rw [List.append_nil]
    exact hs
  | queued id =>
    obtain ⟨hnone, hsilent⟩ := hfresh id rfl
    exact hs.queued hplaced hnone hsilent
  | refused hloop => exact hs.refused hplaced hloop
  | admitted hloop =>
    rw [List.append_nil]
    exact hs.admitted hloop
  | attached hloop hconnio => exact hs.attach hplaced hloop hconnio
  | read hchannel buf => exact hs.read hplaced hchannel buf
  | closed hchannel => exact hs.close hplaced hchannel

end Steps

/-- What holds along a run: the sessions, and nothing of a connection that has not been accepted. -/
structure Kept (past : List ServerEvent) (s : TcpServer) (notes : List ServerNote) : Prop where
  placed : Placed s
  sessions : Sessions s notes
  unknown : ∀ id, id ∉ accepted past → id ∉ s.inHand ∧ notesOf id notes = []

theorem Kept.step {past : List ServerEvent} {s : TcpServer} {notes : List ServerNote}
    (h : Kept past s notes) {event : ServerEvent} (hunique : (accepted (past ++ [event])).Nodup) :
    Kept (past ++ [event]) (tcpServer.step s event).1 (notes ++ (tcpServer.step s event).2) := by
  have hchange := step_change s event
  have hfresh : ∀ id, event = .onAccept id → id ∉ s.inHand ∧ notesOf id notes = [] := by
    rintro id rfl
    rw [accepted_append] at hunique
    exact h.unknown id fun hmem =>
      (List.nodup_append.mp hunique).2.2 id hmem id List.mem_cons_self rfl
  have hplaced := hchange.placed h.placed fun id hevent => (hfresh id hevent).1
  refine ⟨hplaced, hchange.sessions h.placed h.sessions hfresh, fun id hid => ?_⟩
  rw [accepted_append] at hid
  obtain ⟨hpast, hnow⟩ := not_or.mp (mt List.mem_append.mpr hid)
  obtain ⟨hnone, hsilent⟩ := h.unknown id hpast
  have hother : event ≠ .onAccept id := by
    rintro rfl
    exact hnow List.mem_cons_self
  constructor
  · obtain ⟨id', rfl, hperm⟩ | hperm | ⟨id', hperm⟩ := hchange.inHand h.placed
    · refine fun hmem => hnone ((List.mem_cons.mp (hperm.mem_iff.mp hmem)).resolve_left ?_)
      rintro rfl
      exact hother rfl
    · exact fun hmem => hnone (hperm.mem_iff.mp hmem)
    · exact fun hmem => hnone (hperm.mem_iff.mpr (List.mem_cons_of_mem id' hmem))
  · rw [notesOf_append, hsilent, List.nil_append]
    refine List.filter_eq_nil_iff.mpr fun note hnote heq => ?_
    obtain rfl := of_decide_eq_true heq
    exact (hchange.note_id hnote).elim hnone hother

theorem kept_started {num : Nat} (hnum : 0 < num) (max : Nat) :
    Kept [] ((started num).setMaxConnectionNum max) [] := by
  have hwaiting : ((started num).setMaxConnectionNum max).inHand = [] := by
    rw [inHand, waiting]
    change (List.replicate num _).flatMap _ ++ [] = []
    rw [List.append_nil]
    refine List.flatMap_eq_nil_iff.mpr fun loop hloop => ?_
    rw [List.eq_of_mem_replicate hloop]
    rfl
  constructor
  case placed =>
    refine ⟨?_, hwaiting ▸ List.nodup_nil⟩
    rw [setMaxConnectionNum, started, List.length_replicate]
    exact hnum
  case sessions =>
    constructor
    case waiting =>
      intro idx loop hloop id hid
      have hmem : id ∈ ((started num).setMaxConnectionNum max).inHand :=
        List.mem_append_left _ (mem_waiting hloop hid)
      rw [hwaiting] at hmem
      cases hmem
    case attached =>
      intro channel hchannel
      cases hchannel
    case gone => exact fun id _ => .inl rfl
  case unknown =>
    intro id _
    rw [hwaiting]
    exact ⟨List.not_mem_nil, rfl⟩

theorem kept_run {num : Nat} (hnum : 0 < num) (max : Nat) (events : List ServerEvent)
    (hunique : (accepted events).Nodup) :
    Kept events (tcpServer.run ((started num).setMaxConnectionNum max) events)
      (tcpServer.log ((started num).setMaxConnectionNum max) events) := by
  refine Machine.run_history (P := fun past s notes => (accepted past).Nodup → Kept past s notes)
    (fun _ => kept_started hnum max) (fun past s notes event hpast hunique => ?_) events hunique
  refine (hpast ?_).step hunique
  rw [accepted_append] at hunique
  exact (List.nodup_append.mp hunique).1

/-- Two connections, of which the second is refused and the first closes. -/
def twoConnections : List ServerEvent :=
  [.onAccept 7, .onAccept 8, .onCustomEvent 1, .attach 1, .on_read 7 [4], .onCustomEvent 2,
    .on_close 7]

end XChaty.Hv.TcpServer
