import Courier.Proofs.Client.Events

/-! A client stays sound: its outbox and the messages its publishers wait for
account for every slot. Step by step a message moves from one place to the next
only by the events that concern it. -/
namespace Courier

namespace Outbox

variable {o : Outbox} {held : Multiset Message} {next : Nat} {m x : Message} {st : Standing}

/-- Whether there is a session does not matter to who holds what. -/
theorem Sound.connect (sound : o.Sound held next) (up : Bool) :
    ({ o with connected := up } : Outbox).Sound held next :=
  ⟨sound.carry, sound.once, sound.waiting, sound.flying, sound.ended⟩

theorem stands_connect (up : Bool) :
    ({ o with connected := up } : Outbox).Stands x st ↔ o.Stands x st :=
  stands_congr rfl rfl rfl fun _ _ => rfl

theorem Drained.of_connect {p : Outbox} {attempts : List Attempt} {up : Bool}
    (drained : Drained { o with connected := up } attempts p) : Drained o attempts p where
  queue := drained.queue
  requests := drained.requests
  arrives x st here := (drained.arrives x st here).imp_left (stands_connect up).mp
  stays x st stood := drained.stays x st ((stands_connect up).mpr stood)
  failed := drained.failed
  launched := drained.launched

/-- No other message has the slot of one that is held. -/
theorem Sound.alone (sound : o.Sound (m ::ₘ held) next) (kept : x ∈ o.places)
    (same : x.slot = m.slot) : x = m :=
  sound.carry.apart x (Multiset.mem_add.mpr (.inl kept)) m
    (Multiset.mem_add.mpr (.inr (Multiset.mem_cons_self m held))) (.inl same)

/-- What an outbox keeps has its sequence number already. -/
theorem Sound.drawn_of_stands (sound : o.Sound held next) (stands : o.Stands m st) :
    m.seq < next :=
  sound.carry.drawn m (Multiset.mem_add.mpr (.inl stands.kept))

end Outbox

variable {σ : Type}

/-- Every slot is accounted for, and only publishers that wait hold on to a message. -/
structure Client.Sound (c : Client σ) : Prop where
  outbox : c.outbox.Sound c.awaited c.nextSeq
  single : c.awaited.Nodup
  synchronous : ∀ m ∈ c.awaited, m.sync = true

namespace Step

variable {s : Step σ} {m x : Message} {id : PacketId} {reason : Reason} {p : Publication}
  {priority : Priority} {sync late : Bool} {st : Standing} {outcome : Outcome}

/-- The publisher of this message waits no longer: it was too late. -/
def GivesUp (s : Step σ) (m : Message) : Prop := s.Answers m (.error .timeout)

structure TurnedAway (s : Step σ) (fault : ClientFault) : Prop where
  sound : s.after.Sound
  stands : ∀ x st, s.after.outbox.Stands x st ↔ s.before.outbox.Stands x st
  awaited : s.after.awaited = s.before.awaited
  number : s.after.nextSeq = s.before.nextSeq + 1
  answer : s.reply = some (.error fault)
  untaken : numbersOf s.attempts = []

/-- A publication became a message, which was placed unless its publisher gave it
up at once. -/
structure TakenIn (s : Step σ) (p : Publication) (sync late : Bool) (m : Message) : Prop where
  sound : s.after.Sound
  number : s.after.nextSeq = s.before.nextSeq + 1
  numbered : m.seq = s.before.nextSeq
  waited : m.sync = sync
  same_qos : m.qos = p.qos
  apart : ∀ n ∈ s.after.outbox.places, n.slot = m.slot → n = m
  placed : ∃ place, (place = .waiting ∧ s.attempts = [] ∧ m.publication = p ∨
      ∃ id, place = .flying id ∧ s.attempts = [(p, .ok id)]) ∧
    ∀ x st, s.after.outbox.Stands x st ↔ x = m ∧ st = place ∧ ¬s.GivesUp m ∨
      s.before.outbox.Stands x st ∧ ∀ id ∈ numbersOf s.attempts, st ≠ .flying id
  answer : s.reply = if sync then (if late then some (.error .timeout) else none) else some (.ok ())
  awaited : s.after.awaited = if s.reply = none then m ::ₘ s.before.awaited else s.before.awaited

theorem refused (sound : s.before.Sound) (turn : s.turn = .submits p priority sync late)
    {fault : ClientFault} (told : s.accepted p priority sync = .error fault) :
    s.TurnedAway fault := by
  have turned := s.turned
  rw [turn] at turned
  cases turned with
  | refused taken number awaited answer =>
    have same := told
    rw [accepted, taken] at same
    cases same
    obtain ⟨after, stands, attempts, calls, untaken⟩ :=
      sound.outbox.accept_error (Outbox.accepts_of_eq taken)
    have made : s.attempts = attempts := Wire.Idles.attempts (.refl _) calls
    refine ⟨⟨?_, ?_, ?_⟩, stands, awaited, number, answer, made ▸ untaken⟩
    · rw [awaited, number]
      exact after
    · exact awaited ▸ sound.single
    · exact awaited ▸ sound.synchronous
  | handed taken | entered taken =>
    rw [accepted, taken] at told
    contradiction

theorem answers_iff (turn : s.turn = .submits p priority sync late)
    (told : s.accepted p priority sync = .ok m) {result : Except ClientFault Unit} :
    s.Answers m result ↔ s.reply = some result ∧ sync = true := by
  constructor
  · rintro ⟨replied, ⟨_, asks⟩ | ⟨_, _, _, submits, _⟩⟩
    · rw [turn] at asks
      contradiction
    · rw [turn] at submits
      cases submits
      exact ⟨replied, rfl⟩
  · rintro ⟨replied, rfl⟩
    exact ⟨replied, .inr ⟨p, priority, late, turn, told⟩⟩

theorem takenIn_async (sound : s.before.Sound) (turn : s.turn = .submits p priority false late)
    (told : s.accepted p priority false = .ok m) : s.TakenIn p false late m := by
  have kept : ¬s.GivesUp m := by
    rw [GivesUp, answers_iff turn told]
    simp
  have turned := s.turned
  rw [turn] at turned
  cases turned with
  | refused taken =>
    rw [accepted, taken] at told
    contradiction
  | @handed _ _ _ n o taken outbox number awaited answer =>
    have same := told
    rw [accepted, taken] at same
    cases same
    obtain ⟨after, attempts, calls, admitted⟩ :=
      sound.outbox.accept_ok (Outbox.accepts_of_eq taken)
    have made : s.attempts = attempts := Wire.Idles.attempts (.refl _) calls
    obtain ⟨place, spot, stands⟩ := admitted.placed
    have still : s.after.awaited = if s.reply = none then m ::ₘ s.before.awaited
        else s.before.awaited := by
      rw [awaited, answer, if_neg (Option.some_ne_none _)]
    refine ⟨⟨?_, ?_, ?_⟩, number, admitted.numbered, admitted.waited, admitted.same_qos, ?_,
      ⟨place, made ▸ spot, fun x st => ?_⟩, answer, still⟩
    · rw [awaited, number, outbox]
      exact after.release
    · exact awaited ▸ sound.single
    · exact awaited ▸ sound.synchronous
    · rw [outbox]
      exact fun n kept => after.alone kept
    · rw [outbox, after.stands_release, stands, made]
      simp only [kept, not_false_eq_true, and_true]

theorem takenIn_sync (sound : s.before.Sound) (turn : s.turn = .submits p priority true late)
    (told : s.accepted p priority true = .ok m) : s.TakenIn p true late m := by
  have turned := s.turned
  rw [turn] at turned
  cases turned with
  | refused taken =>
    rw [accepted, taken] at told
    contradiction
  | @entered _ _ _ n o taken outbox number answer awaited =>
    have same := told
    rw [accepted, taken] at same
    cases same
    obtain ⟨after, attempts, calls, admitted⟩ :=
      sound.outbox.accept_ok (Outbox.accepts_of_eq taken)
    have made : s.attempts = attempts := Wire.Idles.attempts (.refl _) calls
    obtain ⟨place, spot, stands⟩ := admitted.placed
    have absent : m ∉ s.before.outbox.places + s.before.awaited := by
      intro kept
      have := sound.outbox.carry.drawn m kept
      have := admitted.numbered
      omega
    have new : ∀ st, ¬s.before.outbox.Stands m st :=
      fun st before => absent (Multiset.mem_add.mpr (.inl before.kept))
    have unended : ∀ outcome, ¬o.Stands m (.ended outcome) := by
      intro outcome ended
      rcases (stands m _).mp ended with ⟨_, here⟩ | ⟨stood, _⟩
      · rcases spot with ⟨rfl, _⟩ | ⟨id, rfl, _⟩ <;> contradiction
      · exact new _ stood
    obtain ⟨sought, left⟩ := after.seek late
    rw [← outbox, ← answer] at sought left
    obtain ⟨found, rest⟩ := sought.of_unended unended
    have gave : s.GivesUp m ↔ late = true := by
      rw [GivesUp, answers_iff turn told, found]
      cases late <;> simp
    have client : s.after.Sound := by
      refine ⟨?_, ?_, ?_⟩
      · rw [awaited, number]
        exact left
      · rw [awaited]
        split
        · refine Multiset.nodup_cons.mpr ⟨?_, sound.single⟩
          intro waits
          exact absent (Multiset.mem_add.mpr (.inr waits))
        · exact sound.single
      · intro x waits
        rw [awaited] at waits
        split at waits
        · rcases Multiset.mem_cons.mp waits with rfl | waits
          · exact admitted.waited
          · exact sound.synchronous x waits
        · exact sound.synchronous x waits
    refine ⟨client, number, admitted.numbered, admitted.waited, admitted.same_qos, ?_,
      ⟨place, made ▸ spot, fun x st => ?_⟩, found, awaited⟩
    · intro n kept
      obtain ⟨st, stands⟩ := client.outbox.stands kept
      exact after.alone ((rest n st).mp stands).1.kept
    rw [rest, stands, made, gave]
    constructor
    · rintro ⟨⟨rfl, here⟩ | stood, kept⟩
      · exact .inl ⟨rfl, here, fun gave => kept ⟨rfl, gave⟩⟩
      · exact .inr stood
    · rintro (⟨rfl, here, kept⟩ | stood)
      · exact ⟨.inl ⟨rfl, here⟩, fun gave => kept gave.2⟩
      · refine ⟨.inr stood, ?_⟩
        rintro ⟨rfl, _⟩
        exact new st stood.1

theorem takenIn (sound : s.before.Sound) (turn : s.turn = .submits p priority sync late)
    (told : s.accepted p priority sync = .ok m) : s.TakenIn p sync late m := by
  cases sync with
  | false => exact takenIn_async sound turn told
  | true => exact takenIn_sync sound turn told

structure Unattended (s : Step σ) : Prop where
  sound : s.after.Sound
  number : s.after.nextSeq = s.before.nextSeq
  awaited : s.after.awaited = s.before.awaited

theorem Unattended.of_outbox (sound : s.before.Sound)
    (outbox : s.after.outbox.Sound s.before.awaited s.before.nextSeq)
    (number : s.after.nextSeq = s.before.nextSeq) (awaited : s.after.awaited = s.before.awaited) :
    s.Unattended := by
  refine ⟨⟨?_, ?_, ?_⟩, number, awaited⟩
  · rw [awaited, number]
    exact outbox
  · exact awaited ▸ sound.single
  · exact awaited ▸ sound.synchronous

theorem untouched (sound : s.before.Sound) (turn : s.turn = .other) :
    s.Unattended ∧ s.after.outbox = s.before.outbox ∧ s.attempts = [] := by
  have turned := s.turned
  rw [turn] at turned
  cases turned with
  | other outbox number wire awaited =>
    exact ⟨.of_outbox sound (outbox ▸ sound.outbox) number awaited, outbox, wire.attemptsSince⟩

theorem asked (sound : s.before.Sound) (turn : s.turn = .asks m late) :
    s.after.Sound ∧ s.after.nextSeq = s.before.nextSeq ∧ s.attempts = [] ∧
      s.before.outbox.Sought m late s.reply s.after.outbox ∧
      ∃ others, s.before.awaited = m ::ₘ others ∧
        s.after.awaited = if s.reply = none then m ::ₘ others else others := by
  have turned := s.turned
  rw [turn] at turned
  cases turned with
  | @asked _ _ others waited outbox number wire answer awaited =>
    have held := sound.outbox
    rw [waited] at held
    obtain ⟨sought, left⟩ := held.seek late
    rw [← outbox, ← answer] at sought left
    have fewer : ∀ x ∈ s.after.awaited, x ∈ s.before.awaited := by
      intro x waits
      rw [awaited] at waits
      rw [waited]
      split at waits
      · exact waits
      · exact Multiset.mem_cons_of_mem waits
    refine ⟨⟨?_, ?_, fun x waits => sound.synchronous x (fewer x waits)⟩, number,
      wire.attemptsSince, sought, others, waited, awaited⟩
    · rw [awaited, number]
      exact left
    · have single := sound.single
      rw [waited] at single
      rw [awaited]
      split
      · exact single
      · exact (Multiset.nodup_cons.mp single).2

theorem begun (sound : s.before.Sound) (turn : s.turn = .begins) :
    s.Unattended ∧ s.reply = none ∧ Outbox.Drained s.before.outbox s.attempts s.after.outbox := by
  have turned := s.turned
  rw [turn] at turned
  cases turned with
  | begun renewed outbox number awaited silent =>
    obtain ⟨attempts, calls, after, drained⟩ :=
      Outbox.pump_drained _ (sound.outbox.connect true)
    rw [outbox] at calls after drained
    have made : s.attempts = attempts := renewed.attempts calls
    exact ⟨.of_outbox sound after number awaited, silent, made ▸ drained.of_connect⟩

theorem heard (sound : s.before.Sound) (turn : s.turn = .hears id reason) :
    s.Unattended ∧ s.reply = none ∧ ∃ f : Outbox, f.Sound s.before.awaited s.before.nextSeq ∧
      s.before.outbox.Landed id reason f ∧ Outbox.Drained f s.attempts s.after.outbox := by
  have turned := s.turned
  rw [turn] at turned
  cases turned with
  | heard outbox number awaited silent =>
    obtain ⟨f, attempts, calls, after, between, landed, drained⟩ :=
      Outbox.acknowledge_drained s.before.wire id reason sound.outbox
    rw [outbox] at calls after drained
    have made : s.attempts = attempts := Wire.Idles.attempts (.refl _) calls
    exact ⟨.of_outbox sound after number awaited, silent, f, between, landed, made ▸ drained⟩

theorem lost (sound : s.before.Sound) (turn : s.turn = .loses) :
    s.Unattended ∧ s.reply = none ∧ s.attempts = [] ∧ ∀ x st, s.after.outbox.Stands x st ↔
      s.before.outbox.Loses x ∧ x.sync = true ∧ st = .ended .connectionLost ∨
        s.before.outbox.Stands x st ∧ ¬s.before.outbox.Loses x := by
  have turned := s.turned
  rw [turn] at turned
  cases turned with
  | lost outbox number wire awaited silent =>
    obtain ⟨after, stands⟩ := (sound.outbox.connect false).purge
    rw [← outbox] at after stands
    refine ⟨.of_outbox sound after number awaited, silent, wire.attemptsSince, ?_⟩
    intro x st
    rw [stands, Outbox.stands_connect]
    rfl

theorem cleared (sound : s.before.Sound) (turn : s.turn = .clears) :
    s.Unattended ∧ s.reply = none ∧ s.attempts = [] ∧ s.before.closing = .clearing ∧
      ∀ x st, ¬s.after.outbox.Stands x st := by
  have turned := s.turned
  rw [turn] at turned
  cases turned with
  | cleared closing outbox number wire awaited silent =>
    obtain ⟨after, stands⟩ := (sound.outbox.connect false).clear
    rw [← outbox] at after stands
    exact ⟨.of_outbox sound after number awaited, silent, wire.attemptsSince, closing, stands⟩

/-- Every step leads from a sound client to a sound one. -/
theorem sound_after (sound : s.before.Sound) : s.after.Sound := by
  cases turn : s.turn with
  | other => exact (untouched sound turn).1.sound
  | submits p priority sync late =>
    cases told : s.accepted p priority sync with
    | ok m => exact (takenIn sound turn told).sound
    | error fault => exact (refused sound turn told).sound
  | asks m late => exact (asked sound turn).1
  | begins => exact (begun sound turn).1.sound
  | hears id reason => exact (heard sound turn).1.sound
  | loses => exact (lost sound turn).1.sound
  | clears => exact (cleared sound turn).1.sound

end Step

namespace Client

variable {c d : Client σ} {options : Options} {wire : Wire σ} {actions : List (Action σ)}

theorem eq_of_create (created : create options wire = .ok c) :
    ∃ slots, Slots.ofCapacity? options.capacity = some slots ∧ c = {
      terms := sessionTerms options
      onMessage := options.onMessage
      onConnected := options.onConnected
      shared := { outbox := { slots, inFlightLimit := options.inFlightLimit } }
      wire
      retry := { step := options.reconnectStep, longest := options.reconnectMax } } := by
  unfold create at created
  cases checked : options.check.mapError OptionsFault.clientFault with
  | error fault =>
    rw [checked] at created
    contradiction
  | ok _ =>
    rw [checked] at created
    cases made : Slots.ofCapacity? options.capacity with
    | none =>
      simp only [made] at created
      contradiction
    | some slots =>
      simp only [made] at created
      cases created
      exact ⟨slots, rfl, rfl⟩

/-- A new client holds nothing. -/
theorem of_create (created : create options wire = .ok c) :
    ∃ slots, Slots.ofCapacity? options.capacity = some slots ∧
      c.shared = { outbox := { slots, inFlightLimit := options.inFlightLimit } } ∧
      c.wire = wire ∧ c.nextSeq = 0 ∧ c.publishers = ∅ ∧ c.closing = .alive := by
  obtain ⟨slots, made, rfl⟩ := eq_of_create created
  exact ⟨slots, made, rfl, rfl, rfl, rfl, rfl⟩

theorem awaited_of_create (created : create options wire = .ok c) : c.awaited = 0 := by
  obtain ⟨_, _, _, _, _, publishers, _⟩ := of_create created
  rw [awaited, publishers]
  rfl

theorem outbox_of_create (created : create options wire = .ok c) : ∃ slots,
    Slots.ofCapacity? options.capacity = some slots ∧
      c.outbox = { slots, inFlightLimit := options.inFlightLimit } := by
  obtain ⟨slots, made, shared, _⟩ := of_create created
  exact ⟨slots, made, congrArg Shared.outbox shared⟩

/-- In a new client no message stands anywhere. -/
theorem places_of_create (created : create options wire = .ok c) : c.outbox.places = 0 := by
  obtain ⟨_, _, outbox⟩ := outbox_of_create created
  rw [outbox]
  rfl

/-- A client that holds nothing yet, over a pool of this many slots. -/
structure Pristine (c : Client σ) (capacity : Nat) : Prop where
  slots : Slots.ofCapacity? capacity = some c.outbox.slots
  places : c.outbox.places = 0
  awaited : c.awaited = 0

theorem pristine_of_create (created : create options wire = .ok c) :
    c.Pristine options.capacity := by
  obtain ⟨slots, made, outbox⟩ := outbox_of_create created
  refine ⟨?_, places_of_create created, awaited_of_create created⟩
  rw [outbox]
  exact made

theorem Pristine.sound {capacity : Nat} (pristine : c.Pristine capacity) : c.Sound := by
  obtain ⟨made, places, awaited⟩ := pristine
  have empty : ∀ m, m ∉ c.outbox.places := fun m kept => Multiset.notMem_zero m (places ▸ kept)
  refine ⟨⟨⟨?_, ?_, ?_⟩, ?_, ?_, ?_, ?_⟩, awaited ▸ Multiset.nodup_zero, ?_⟩
  · rw [places, awaited]
    exact Slots.counts_ofCapacity made
  · rw [places, awaited]
    exact fun m kept => absurd kept (Multiset.notMem_zero m)
  · rw [places, awaited]
    exact fun m kept => absurd kept (Multiset.notMem_zero m)
  · exact places ▸ Multiset.nodup_zero
  · exact fun m waits => absurd (Outbox.mem_places_of_queue waits) (empty m)
  · exact fun id m flies => absurd (Outbox.mem_places_of_inFlight flies) (empty m)
  · exact fun seq m found => absurd (Outbox.mem_places_of_finished found) (empty m)
  · rw [awaited]
    exact fun m waits => absurd waits (Multiset.notMem_zero m)

theorem sound_of_create (created : create options wire = .ok c) : c.Sound :=
  (pristine_of_create created).sound

theorem Reaches.sound (created : create options wire = .ok c) (run : Reaches c actions d) :
    d.Sound :=
  run.induct (P := fun _ d => d.Sound) (sound_of_create created) fun _ _ => Step.sound_after

end Client

end Courier
