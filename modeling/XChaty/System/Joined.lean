import XChaty.ProofKit.Joins
import XChaty.System.Conversations

/-! A network that joins segments and never cuts one.  Since `onMsg` decodes one message from the
front of a buffer and leaves the rest of it, the first line of each group of joined segments is heard
and the others are lost; no line is invented, doubled, changed or overtaken. -/

namespace XChaty.System

open Qt Protoc ProofKit Chat Hv Server Client

namespace Programs

/-! ### Segments -/

section Segments

variable {hio_id : Link → Nat} {Db : Type} (host : Host Db)

/-- What the network does to the segments of one connection is to join neighbours. -/
def OnlyJoins (link : Link) (s : Programs Db) : Input → Prop
  | .recut link' segments => link' = link → Joins (s.up link) segments
  | _ => True

/-- The segments of one connection, whole. -/
def wholeOn (id id' : Nat) (segment : QByteArray) : List QByteArray :=
  if id' = id then [segment] else []

theorem wholeOn_self (id : Nat) (segments : List QByteArray) :
    segments.flatMap (wholeOn id id) = segments := by
  have hwhole : wholeOn id id = fun segment => [segment] := funext fun _ => if_pos rfl
  rw [hwhole, List.flatMap_singleton']

theorem wholeOn_other {id id' : Nat} (h : id' ≠ id) (segments : List QByteArray) :
    segments.flatMap (wholeOn id id') = [] :=
  List.flatMap_eq_nil_iff.mpr fun _ _ => if_neg h

/-- Without a cut or a join of a connection, its segments are read as they were written. -/
theorem whole_step (hunique : Function.Injective hio_id) {s : Programs Db} {input : Input}
    {link : Link} (h : ∀ segments, input ≠ .recut link segments) :
    readFrom (hio_id link) ((programs hio_id host).step s input).2 ++
        ((programs hio_id host).step s input).1.up link =
      s.up link ++ writtenTo link ((programs hio_id host).step s input).2 := by
  have hkeeps : (programs hio_id host).AllOk (Keeps hio_id (wholeOn (hio_id link))) s [input] := by
    refine ⟨?_, trivial⟩
    cases input with
    | recut link' segments =>
      intro _ _
      have hlink : hio_id link' ≠ hio_id link := fun heq =>
        h segments (hunique heq ▸ rfl)
      rw [wholeOn_other hlink, wholeOn_other hlink]
    | window | onMessage | stranger | onAccept | onCustomEvent | attach | on_read | on_close
    | deliver | startBtn => trivial
  have hcarried := carried hunique hkeeps link
  rwa [wholeOn_self, wholeOn_self, wholeOn_self, wholeOn_self, Machine.log_singleton] at hcarried

theorem joins_step (hunique : Function.Injective hio_id) {s : Programs Db} {input : Input}
    {link : Link} (h : OnlyJoins link s input) :
    Joins (s.up link ++ writtenTo link ((programs hio_id host).step s input).2)
      (readFrom (hio_id link) ((programs hio_id host).step s input).2 ++
        ((programs hio_id host).step s input).1.up link) := by
  by_cases hrecut : ∃ segments, input = .recut link segments
  · obtain ⟨segments, rfl⟩ := hrecut
    change Joins (s.up link ++ []) ((s.recut link segments).up link)
    rw [List.append_nil, recut]
    split
    · change Joins (s.up link) (Function.update s.up link segments link)
      rw [Function.update_self]
      exact h rfl
    · exact Joins.refl _
  · rw [whole_step host hunique fun segments heq => hrecut ⟨segments, heq⟩]
    exact Joins.refl _

theorem joins_run (hunique : Function.Injective hio_id) {link : Link} {s : Programs Db}
    {inputs : List Input} (h : (programs hio_id host).AllOk (OnlyJoins link) s inputs) :
    Joins (s.up link ++ writtenTo link ((programs hio_id host).log s inputs))
      (readFrom (hio_id link) ((programs hio_id host).log s inputs) ++
        ((programs hio_id host).run s inputs).up link) := by
  induction inputs generalizing s with
  | nil =>
    change Joins (s.up link ++ []) (s.up link)
    rw [List.append_nil]
    exact Joins.refl _
  | cons input inputs ih =>
    obtain ⟨hinput, hinputs⟩ := h
    have hnow := joins_step host hunique hinput
    have hlater := ih hinputs
    generalize hs' : (programs hio_id host).step s input = answer at hnow hlater hinputs
    rw [Machine.log_cons, Machine.run_cons, hs', writtenTo, readFrom, List.flatMap_append,
      List.flatMap_append, itemsOn_append, itemsOn_append, ← writtenTo, ← writtenTo, ← readFrom,
      ← readFrom, ← List.append_assoc]
    refine (hnow.append (Joins.refl _)).trans ?_
    rw [List.append_assoc, List.append_assoc]
    exact (Joins.refl _).append hlater

end Segments

/-! ### Lines -/

/-- What is joined to a segment does not change what is heard of it. -/
def Fronted (segment : QByteArray) : Prop :=
  ∀ rest, ChatServer.spoken [segment ++ rest] = ChatServer.spoken [segment]

theorem fronted_chatWire {m_user : User} {form : Form}
    (hfits : (XChatyClient.chatWire m_user form).length < 2 ^ 31) :
    Fronted (XChatyClient.chatWire m_user form) := by
  intro rest
  have halone := spoken_chatWire hfits []
  rw [List.append_nil] at halone
  rw [spoken_chatWire hfits rest, halone]

theorem fronted_heartbeatWire (now : QString) : Fronted (XChatyClient.heartbeatWire now) := by
  intro rest
  have halone := spoken_heartbeatWire now []
  rw [List.append_nil] at halone
  rw [spoken_heartbeatWire now rest, halone]

theorem fronted_writes {s : XChatyClient} (hnewest : XChatyClient.Newest s)
    {events : List ClientEvent} (hfits : Fits s.m_user events) (c : Nat) :
    ∀ segment ∈ itemsOn c (XChatyClient.writes (chatyClient.log s events)), Fronted segment := by
  have hall : ∀ effect ∈ chatyClient.log s events, ∀ w ∈ XChatyClient.Effect.write effect,
      Fronted w.2 := by
    refine Machine.log_forall (I := fun t => XChatyClient.Newest t ∧ t.m_user = s.m_user)
      (Q := fun effect => ∀ w ∈ XChatyClient.Effect.write effect, Fronted w.2) ?_ ?_ ⟨hnewest, rfl⟩
    · rintro t event - ⟨ht, huser⟩
      obtain ⟨hnext, -, hsame⟩ := ht.step event
      exact ⟨hnext, hsame.trans huser⟩
    · rintro t event hevent ⟨-, huser⟩ effect heffect w hw
      have hwrote := t.step_wrote event
      generalize (chatyClient.step t event).2 = effects at hwrote heffect
      cases hwrote with
      | line form hc =>
        cases List.mem_singleton.mp heffect
        cases List.mem_singleton.mp hw
        exact fronted_chatWire (huser ▸ hfits form hevent)
      | heartbeat ht hconnected now =>
        cases List.mem_singleton.mp heffect
        cases List.mem_singleton.mp hw
        exact fronted_heartbeatWire now
      | nothing htyped hwrites hdied =>
        rw [List.flatMap_eq_nil_iff.mp hwrites effect heffect] at hw
        cases hw
  intro segment hsegment
  obtain ⟨w, hw, rfl⟩ := List.mem_map.mp hsegment
  obtain ⟨effect, heffect, hmem⟩ := List.mem_flatMap.mp (List.mem_filter.mp hw).1
  exact hall effect heffect w hmem

theorem spoken_eq_flatMap (segments : List QByteArray) :
    ChatServer.spoken segments = segments.flatMap fun segment => ChatServer.spoken [segment] := by
  induction segments with
  | nil => rfl
  | cons segment segments ih =>
    rw [List.flatMap_cons, ← ih, ← spoken_append, List.singleton_append]

/-- What becomes of the segments that are written to a connection: those of each group are joined,
the lines in all of them are `lines`, and those in the first of each group are `heard`. -/
structure Gathered (written arrived : List QByteArray) (lines heard : List QString)
    (groups : List (List QByteArray)) : Prop where
  nonempty : [] ∉ groups
  whole : groups.flatten = written
  joined : groups.map List.flatten = arrived
  typed : ChatServer.spoken groups.flatten = lines
  first : ChatServer.spoken (firsts groups) = heard
  ordered : heard.Sublist lines

section Joined

variable {hio_id : Link → Nat} {Db : Type} (host : Host Db)

/-- While the network only joins the segments of a channel, the lines that the server hears on it and
those that it will hear of what is on its way are the lines in the first segments of the groups that
have been joined, and so some of the lines typed for the channel, in the order of typing. -/
theorem joined_conversation (hunique : Function.Injective hio_id) (database : Db) (port : QString)
    (users : Nat → User) (forms : Nat → Form) (inputs : List Input) (k c : Nat)
    (hjoins : (programs hio_id host).AllOk (OnlyJoins (.window k c))
      (started database port users forms) inputs)
    (hfits : Fits (users k) (eventsOf k inputs)) :
    let notes := (programs hio_id host).log (started database port users forms) inputs
    let waiting := ((programs hio_id host).run (started database port users forms) inputs).up
      (.window k c)
    ∃ groups, Gathered (writtenTo (.window k c) notes)
      (readFrom (hio_id (.window k c)) notes ++ waiting)
      (typedFor c (XChatyClient.new (users k) (forms k)).1 (eventsOf k inputs))
      (ChatServer.spoken (readFrom (hio_id (.window k c)) notes) ++ ChatServer.spoken waiting)
      groups := by
  intro notes waiting
  obtain ⟨hnewest, huser⟩ := XChatyClient.newest_new (users k) (forms k)
  have hfits' : Fits (XChatyClient.new (users k) (forms k)).1.m_user (eventsOf k inputs) :=
    huser.symm ▸ hfits
  obtain ⟨-, heffects⟩ := (simulates_window hio_id host k).run
    (s := started database port users forms) ⟨quiet_started database port users forms, rfl⟩
    (Machine.allOk_of_forall (fun _ (_ : Input) (_ : _ ∈ inputs) => trivial) _)
  rw [eventsOf_run] at heffects
  have hwritten : writtenTo (.window k c) notes = itemsOn c (XChatyClient.writes
      (chatyClient.log (XChatyClient.new (users k) (forms k)).1 (eventsOf k inputs))) :=
    (writtenTo_window k c notes).trans (congrArg (fun es => itemsOn c (XChatyClient.writes es))
      heffects)
  obtain ⟨groups, hnonempty, hflatten, hmap⟩ := joins_run host hunique hjoins
  change groups.flatten = writtenTo (.window k c) notes at hflatten
  change groups.map List.flatten = readFrom (hio_id (.window k c)) notes ++ waiting at hmap
  have hlines : ChatServer.spoken groups.flatten =
      typedFor c (XChatyClient.new (users k) (forms k)).1 (eventsOf k inputs) := by
    rw [hflatten, hwritten]
    exact spoken_writes hnewest c hfits'
  have hheard : ChatServer.spoken (firsts groups) =
      ChatServer.spoken (readFrom (hio_id (.window k c)) notes) ++ ChatServer.spoken waiting := by
    rw [← spoken_append, ← hmap, spoken_eq_flatMap (groups.map List.flatten), spoken_eq_flatMap]
    refine (flatMap_joined hnonempty fun segment hsegment => ?_).symm
    rw [hflatten, hwritten] at hsegment
    exact fronted_writes hnewest hfits' c segment hsegment
  refine ⟨groups, hnonempty, hflatten, hmap, hlines, hheard, ?_⟩
  rw [← hheard, ← hlines]
  exact (firsts_sublist.map _).filterMap _

end Joined

/-! ### Two lines in one segment -/

def hiWire : QByteArray := XChatyClient.chatWire (someUsers 0) hiForm

/-- A window says 'hi' twice, and the network joins the two segments. -/
def doubled : List Input :=
  [.window 0 (.connected 0), .onAccept (.window 0 0), .onCustomEvent 1, .attach 1,
    .window 0 (.sendMsg hiForm), .window 0 (.sendMsg hiForm),
    .recut (.window 0 0) [hiWire ++ hiWire], .on_read (.window 0 0), .deliver noon]

theorem doubled_joins : (programs numbering syntaxErrorHost).AllOk (OnlyJoins (.window 0 0))
    (started [] (.text [49]) someUsers someForms) doubled := by
  refine ⟨trivial, trivial, trivial, trivial, trivial, trivial, fun _ => ?_, trivial, trivial,
    trivial⟩
  exact ⟨[[hiWire, hiWire]], by simp, by rfl, by simp⟩

theorem joined_conversation_doubled :
    let notes := (programs numbering syntaxErrorHost).log
      (started [] (.text [49]) someUsers someForms) doubled
    let waiting := ((programs numbering syntaxErrorHost).run
      (started [] (.text [49]) someUsers someForms) doubled).up (.window 0 0)
    ∃ groups, Gathered (writtenTo (.window 0 0) notes)
      (readFrom (numbering (.window 0 0)) notes ++ waiting)
      (typedFor 0 (XChatyClient.new (someUsers 0) (someForms 0)).1 (eventsOf 0 doubled))
      (ChatServer.spoken (readFrom (numbering (.window 0 0)) notes) ++ ChatServer.spoken waiting)
      groups := by
  refine joined_conversation syntaxErrorHost numbering_injective [] (.text [49]) someUsers someForms
    doubled 0 0 doubled_joins fun form hform => ?_
  obtain rfl : form = hiForm := by simpa [doubled, eventsOf] using hform
  decide

end Programs

end XChaty.System
