import Courier.Proofs.Client.Soundness

/-! How the messages of a client move in one step. A message comes to stand
somewhere only by an event that puts it there, and stops standing there only by
an event that takes it away; each event also settles where the message is next. -/
namespace Courier

namespace Outbox

variable {o p : Outbox} {held out : Multiset Message} {next next' : Nat} {m x : Message}
  {st : Standing} {attempts : List Attempt} {result result' : Except TransportFault PacketId}

theorem Sound.queue_nodup (sound : o.Sound held next) : o.queue.Nodup := by
  have once := sound.once
  rw [places, Multiset.add_assoc] at once
  exact Multiset.coe_nodup.mp (Multiset.nodup_add.mp once).1

theorem Sound.queue_seqs_nodup (sound : o.Sound held next) :
    (o.queue.map Message.seq).Nodup := by
  refine List.Nodup.map_on ?_ sound.queue_nodup
  intro m first n second same
  exact sound.carry.apart m (Multiset.mem_add.mpr (.inl (mem_places_of_queue first))) n
    (Multiset.mem_add.mpr (.inl (mem_places_of_queue second))) (.inr same)

theorem Sound.drawn_of_queue (sound : o.Sound held next) (waits : m ∈ o.queue) : m.seq < next :=
  sound.carry.drawn m (Multiset.mem_add.mpr (.inl (mem_places_of_queue waits)))

theorem Offers.waits (offered : o.Offers attempts m result) : o.Stands m .waiting :=
  (List.of_mem_zip offered).1

theorem Offers.congr (queue : p.queue = o.queue) :
    p.Offers attempts m result ↔ o.Offers attempts m result := by
  rw [Offers, Offers, queue]

/-- No message is offered twice in one stretch. -/
theorem Sound.offers_unique (sound : o.Sound held next) (first : o.Offers attempts m result)
    (second : o.Offers attempts m result') : result = result' := by
  have distinct := sound.queue_nodup
  unfold Offers at first second
  generalize o.queue = queue at first second distinct
  induction queue generalizing attempts with
  | nil => exact absurd first List.not_mem_nil
  | cons n rest ih =>
    obtain ⟨fresh, distinct⟩ := List.nodup_cons.mp distinct
    cases attempts with
    | nil => exact absurd first List.not_mem_nil
    | cons attempt others =>
      rw [List.zip_cons_cons] at first second
      rcases List.mem_cons.mp first with one | one <;> rcases List.mem_cons.mp second with two | two
      · cases one.trans two.symm
        rfl
      · cases one
        exact absurd (List.of_mem_zip two).1 fresh
      · cases two
        exact absurd (List.of_mem_zip one).1 fresh
      · exact ih one two distinct

/-- A message that was offered stands nowhere but where its attempt left it. -/
theorem Drained.settled (drained : Drained o attempts p) (sound : o.Sound held next)
    (offered : o.Offers attempts m result) (stands : p.Stands m st) : st = .ofAttempt result := by
  rcases drained.arrives m st stands with before | ⟨result', again, same⟩
  · have waiting := sound.stands_unique before offered.waits
    subst waiting
    have left : m ∈ o.queue.drop attempts.length := drained.queue ▸ stands
    have tried : m ∈ o.queue.take attempts.length := by
      have among := offered
      rw [Offers, List.zip_eq_zip_take_min] at among
      exact List.take_subset_take_left _ (Nat.min_le_right _ _) (List.of_mem_zip among).1
    have split := sound.queue_nodup
    rw [← List.take_append_drop attempts.length o.queue] at split
    exact absurd rfl ((List.nodup_append.mp split).2.2 m tried m left)
  · rw [same, sound.offers_unique again offered]

theorem Drained.refuses {fault : TransportFault} (drained : Drained o attempts p)
    (sound : o.Sound held next) (after : p.Sound out next')
    (offered : o.Offers attempts m (.error fault)) :
    p.Stands m st ↔ m.sync = true ∧ st = .ended .sendFailed := by
  constructor
  · intro stands
    have ended := drained.settled sound offered stands
    subst ended
    exact ⟨(after.ended _ m stands.1).2.1, rfl⟩
  · rintro ⟨sync, rfl⟩
    exact drained.failed m fault offered sync

end Outbox

variable {σ : Type}

namespace Step

variable {s : Step σ} {m x : Message} {id : PacketId} {p : Publication} {st : Standing}
  {outcome : Outcome} {result : Except ClientFault Unit}

inductive Places (s : Step σ) (m : Message) : Standing → Prop where
  | waits {p : Publication} (accepts : s.Accepts p m) (idle : s.attempts = [])
      (same : m.publication = p) : Places s m .waiting
  | flies {p : Publication} {id : PacketId} (takes : s.Takes p m id) : Places s m (.flying id)
  | ends {outcome : Outcome} (ends : s.Ends m outcome) : Places s m (.ended outcome)

inductive Displaces (s : Step σ) (m : Message) : Standing → Prop where
  | taken {id : PacketId} (offered : s.Offers m (.ok id)) : Displaces s m .waiting
  | ended {outcome : Outcome} {st : Standing} (ends : s.Ends m outcome) : Displaces s m st
  | told {result : Except ClientFault Unit} {st : Standing} (answers : s.Answers m result) :
      Displaces s m st
  | cleared {st : Standing} (clears : s.Clears m) : Displaces s m st
  | overwritten {id : PacketId} (used : id ∈ s.numbersInUse)
      (given : id ∈ numbersOf s.attempts) : Displaces s m (.flying id)

theorem arrives_of_drained {f : Outbox} (drains : s.Drains)
    (queue : f.queue = s.before.outbox.queue)
    (drained : Outbox.Drained f s.attempts s.after.outbox)
    (stands : s.after.outbox.Stands x st) : f.Stands x st ∨ s.Places x st := by
  rcases drained.arrives x st stands with before | ⟨result, offered, rfl⟩
  · exact .inl before
  · have offers : s.Offers x result := ⟨drains, (Outbox.Offers.congr queue).mp offered⟩
    cases result with
    | ok id => exact .inr (.flies (.inr ⟨offers, rfl⟩))
    | error fault => exact .inr (.ends (.refused offers))

/-- Where a message stands, it stood before, or an event has put it. -/
theorem arrives (sound : s.before.Sound) (stands : s.after.outbox.Stands x st) :
    s.before.outbox.Stands x st ∨ s.Places x st := by
  cases turn : s.turn with
  | other =>
    obtain ⟨_, outbox, _⟩ := untouched sound turn
    exact .inl (outbox ▸ stands)
  | submits p priority sync late =>
    cases told : s.accepted p priority sync with
    | error fault => exact .inl (((refused sound turn told).stands x st).mp stands)
    | ok m =>
      obtain ⟨place, spot, all⟩ := (takenIn sound turn told).placed
      have accepts : s.Accepts p m := ⟨priority, sync, late, turn, told⟩
      rcases (all x st).mp stands with ⟨rfl, rfl, _⟩ | ⟨before, _⟩
      · rcases spot with ⟨rfl, idle, same⟩ | ⟨id, rfl, made⟩
        · exact .inr (.waits accepts idle same)
        · exact .inr (.flies (.inl ⟨accepts, made⟩))
      · exact .inl before
  | asks m late =>
    obtain ⟨_, _, _, sought, _⟩ := asked sound turn
    generalize s.reply = reply at sought
    generalize s.after.outbox = q at sought stands
    cases sought with
    | ended _ all => exact .inl ((all x st).mp stands).1
    | gaveUp _ _ all => exact .inl ((all x st).mp stands).1
    | waits => exact .inl stands
  | begins => exact arrives_of_drained (.inl turn) rfl (begun sound turn).2.2 stands
  | hears id reason =>
    obtain ⟨_, _, f, _, landed, drained⟩ := heard sound turn
    rcases arrives_of_drained (.inr ⟨id, reason, turn⟩) landed.queue drained stands with here | put
    · rcases (landed.stands x st).mp here with ⟨flew, _, rfl⟩ | ⟨before, _⟩
      · exact .inr (.ends (.acknowledged ⟨turn, flew⟩))
      · exact .inl before
    · exact .inr put
  | loses =>
    rcases ((lost sound turn).2.2.2 x st).mp stands with ⟨loses, _, rfl⟩ | ⟨before, _⟩
    · exact .inr (.ends (.lost ⟨turn, loses⟩))
    · exact .inl before
  | clears => exact absurd stands ((cleared sound turn).2.2.2.2 x st)

/-- What waits, waited before, or came in now and was not sent. -/
theorem queue_arrives (sound : s.before.Sound) (waits : x ∈ s.after.outbox.queue) :
    x ∈ s.before.outbox.queue ∨ ∃ p, s.Accepts p x ∧ s.attempts = [] ∧ x.publication = p := by
  have stands : s.after.outbox.Stands x .waiting := waits
  rcases arrives sound stands with waited | placed
  · exact .inl waited
  · cases placed with
    | waits accepts idle same => exact .inr ⟨_, accepts, idle, same⟩

theorem stays_of_drained {f : Outbox} {held : Multiset Message} {next : Nat}
    (between : f.Sound held next) (drains : s.Drains) (queue : f.queue = s.before.outbox.queue)
    (numbers : f.inFlight.keys = s.numbersInUse)
    (drained : Outbox.Drained f s.attempts s.after.outbox) (stood : f.Stands x st) :
    s.after.outbox.Stands x st ∨ s.Displaces x st := by
  rcases drained.stays x st stood with stands | ⟨result, offered⟩ | ⟨id, given, rfl⟩
  · exact .inl stands
  · have offers : s.Offers x result := ⟨drains, (Outbox.Offers.congr queue).mp offered⟩
    cases result with
    | ok id =>
      have waiting := between.stands_unique stood offered.waits
      subst waiting
      exact .inr (.taken offers)
    | error fault => exact .inr (.ended (.refused offers))
  · exact .inr (.overwritten (numbers ▸ Table.mem_keys.mpr ⟨x, stood⟩) given)

/-- Where a message stood, it stands, unless an event has taken it away. -/
theorem stays (sound : s.before.Sound) (stood : s.before.outbox.Stands x st) :
    s.after.outbox.Stands x st ∨ s.Displaces x st := by
  cases turn : s.turn with
  | other =>
    obtain ⟨_, outbox, _⟩ := untouched sound turn
    exact .inl (outbox ▸ stood)
  | submits p priority sync late =>
    cases told : s.accepted p priority sync with
    | error fault => exact .inl (((refused sound turn told).stands x st).mpr stood)
    | ok m =>
      obtain ⟨place, _, all⟩ := (takenIn sound turn told).placed
      by_cases given : ∃ id ∈ numbersOf s.attempts, st = .flying id
      · obtain ⟨id, given, rfl⟩ := given
        refine .inr (.overwritten ?_ given)
        rw [numbersInUse, turn]
        exact Table.mem_keys.mpr ⟨x, stood⟩
      · refine .inl ((all x st).mpr (.inr ⟨stood, fun id member same => given ⟨id, member, same⟩⟩))
  | asks m late =>
    obtain ⟨_, _, _, sought, _⟩ := asked sound turn
    generalize answer : s.reply = reply at sought
    generalize s.after.outbox = q at sought ⊢
    by_cases own : x = m
    · subst own
      cases sought with
      | ended => exact .inr (.told ⟨answer, .inl ⟨late, turn⟩⟩)
      | gaveUp => exact .inr (.told ⟨answer, .inl ⟨late, turn⟩⟩)
      | waits => exact .inl stood
    · cases sought with
      | ended _ all => exact .inl ((all x st).mpr ⟨stood, own⟩)
      | gaveUp _ _ all => exact .inl ((all x st).mpr ⟨stood, own⟩)
      | waits => exact .inl stood
  | begins =>
    exact stays_of_drained sound.outbox (.inl turn) rfl (by rw [numbersInUse, turn])
      (begun sound turn).2.2 stood
  | hears id reason =>
    obtain ⟨_, _, f, between, landed, drained⟩ := heard sound turn
    by_cases flew : s.before.outbox.Stands x (.flying id)
    · exact .inr (.ended (.acknowledged ⟨turn, flew⟩))
    · exact stays_of_drained between (.inr ⟨id, reason, turn⟩) landed.queue
        (by rw [numbersInUse, turn, landed.numbers]) drained
        ((landed.stands x st).mpr (.inr ⟨stood, flew⟩))
  | loses =>
    by_cases gone : s.before.outbox.Loses x
    · exact .inr (.ended (.lost ⟨turn, gone⟩))
    · exact .inl (((lost sound turn).2.2.2 x st).mpr (.inr ⟨stood, gone⟩))
  | clears => exact .inr (.cleared ⟨turn, stood.kept⟩)

/-- Only what waits or is in flight can end. -/
theorem Ends.stood (ends : s.Ends m outcome) :
    s.before.outbox.Stands m .waiting ∨ ∃ id, s.before.outbox.Stands m (.flying id) := by
  cases ends with
  | acknowledged heard => exact .inr ⟨_, heard.2⟩
  | refused offered => exact .inl offered.2.waits
  | lost loses => exact loses.2.2

/-- A message ends once. -/
theorem Ends.unended {other : Outcome} (ends : s.Ends m outcome) (sound : s.before.Sound) :
    ¬s.before.outbox.Stands m (.ended other) := by
  intro ended
  rcases ends.stood with waits | ⟨id, flies⟩
  · have := sound.outbox.stands_unique waits ended
    contradiction
  · have := sound.outbox.stands_unique flies ended
    contradiction

theorem Ends.drawn (ends : s.Ends m outcome) (sound : s.before.Sound) :
    m.seq < s.before.nextSeq := by
  rcases ends.stood with waits | ⟨id, flies⟩
  · exact sound.outbox.drawn_of_stands waits
  · exact sound.outbox.drawn_of_stands flies

/-- The queue was sent from an outbox in which no message waited that did not
wait before. -/
theorem Drains.drained (drains : s.Drains) (sound : s.before.Sound) :
    ∃ f : Outbox, f.Sound s.before.awaited s.before.nextSeq ∧
      f.queue = s.before.outbox.queue ∧ f.inFlight.keys = s.numbersInUse ∧
      Outbox.Drained f s.attempts s.after.outbox := by
  rcases drains with turn | ⟨id, reason, turn⟩
  · refine ⟨_, sound.outbox, rfl, ?_, (begun sound turn).2.2⟩
    rw [numbersInUse, turn]
  · obtain ⟨_, _, f, between, landed, drained⟩ := heard sound turn
    refine ⟨f, between, landed.queue, ?_, drained⟩
    rw [numbersInUse, turn, landed.numbers]

/-- What went to the transport came off the front of the queue. -/
theorem Drains.sent (drains : s.Drains) (sound : s.before.Sound) : ∃ sent,
    s.before.outbox.queue = sent ++ s.after.outbox.queue ∧
      s.attempts.map Prod.fst = sent.map Message.publication := by
  obtain ⟨f, _, queue, _, drained⟩ := drains.drained sound
  have left := drained.queue
  have requests := drained.requests
  rw [queue] at left requests
  refine ⟨s.before.outbox.queue.take s.attempts.length, ?_, requests⟩
  rw [left, List.take_append_drop]

/-- An ended message is with whoever waits for it, and nowhere else. -/
theorem Ends.stands_iff (ends : s.Ends m outcome) (sound : s.before.Sound) :
    s.after.outbox.Stands m st ↔ m.sync = true ∧ st = .ended outcome := by
  cases ends with
  | @acknowledged id reason acknowledged =>
    obtain ⟨turn, found⟩ := acknowledged
    have flew : s.before.outbox.Stands m (.flying id) := found
    obtain ⟨_, _, f, between, landed, drained⟩ := heard sound turn
    have here : ∀ st, f.Stands m st ↔ m.sync = true ∧ st = .ended (.ofReason reason) := by
      intro st
      rw [landed.stands]
      refine ⟨?_, fun held => .inl ⟨flew, held⟩⟩
      rintro (⟨_, held⟩ | ⟨_, grounded⟩)
      · exact held
      · exact absurd flew grounded
    have unoffered : ∀ result, ¬f.Offers s.attempts m result := by
      intro result offered
      have waited : s.before.outbox.Stands m .waiting :=
        ((Outbox.Offers.congr landed.queue).mp offered).waits
      have := sound.outbox.stands_unique waited flew
      contradiction
    constructor
    · intro stands
      rcases drained.arrives m st stands with before | ⟨result, offered, _⟩
      · exact (here st).mp before
      · exact absurd offered (unoffered result)
    · intro held
      rcases drained.stays m st ((here st).mpr held) with stands | ⟨result, offered⟩ | ⟨_, _, same⟩
      · exact stands
      · exact absurd offered (unoffered result)
      · have := held.2.symm.trans same
        contradiction
  | refused offered =>
    obtain ⟨f, between, queue, _, drained⟩ := offered.1.drained sound
    exact drained.refuses between (sound_after sound).outbox
      ((Outbox.Offers.congr queue).mpr offered.2)
  | lost loses =>
    obtain ⟨turn, loses⟩ := loses
    rw [(Step.lost sound turn).2.2.2]
    simp only [loses, true_and, not_true_eq_false, and_false, or_false]

/-- A message the transport took off the queue is in flight, or nowhere at all. -/
theorem Offers.flying (offered : s.Offers m (.ok id)) (sound : s.before.Sound)
    (stands : s.after.outbox.Stands m st) : st = .flying id := by
  obtain ⟨f, between, queue, _, drained⟩ := offered.1.drained sound
  exact drained.settled between ((Outbox.Offers.congr queue).mpr offered.2) stands

/-- Under a new number the message stays in flight. -/
theorem Offers.flies (offered : s.Offers m (.ok id)) (sound : s.before.Sound) (fresh : s.Fresh) :
    s.after.outbox.Stands m (.flying id) := by
  obtain ⟨f, between, queue, numbers, drained⟩ := offered.1.drained sound
  refine drained.launched ?_ m id ((Outbox.Offers.congr queue).mpr offered.2)
  rw [numbers]
  exact fresh

theorem Fresh.unused (fresh : s.Fresh) (used : id ∈ s.numbersInUse)
    (given : id ∈ numbersOf s.attempts) : False :=
  (List.nodup_append.mp fresh).2.2 id used id given rfl

theorem Accepts.taken (accepts : s.Accepts p m) (sound : s.before.Sound) :
    ∃ priority sync late, s.turn = .submits p priority sync late ∧ s.TakenIn p sync late m := by
  obtain ⟨priority, sync, late, turn, told⟩ := accepts
  exact ⟨priority, sync, late, turn, takenIn sound turn told⟩

theorem Accepts.numbered (accepts : s.Accepts p m) (sound : s.before.Sound) :
    m.seq = s.before.nextSeq ∧ s.after.nextSeq = s.before.nextSeq + 1 := by
  obtain ⟨_, _, _, _, taken⟩ := accepts.taken sound
  exact ⟨taken.numbered, taken.number⟩

/-- An accepted message stood nowhere before. -/
theorem Accepts.new (accepts : s.Accepts p m) (sound : s.before.Sound) (st : Standing) :
    ¬s.before.outbox.Stands m st := by
  intro stood
  have := sound.outbox.drawn_of_stands stood
  have := (accepts.numbered sound).1
  omega

/-- Sequence numbers are never given back. -/
theorem number_mono (sound : s.before.Sound) : s.before.nextSeq ≤ s.after.nextSeq := by
  cases turn : s.turn with
  | other => exact (untouched sound turn).1.number.ge
  | submits p priority sync late =>
    cases told : s.accepted p priority sync with
    | ok m =>
      rw [(takenIn sound turn told).number]
      exact Nat.le_succ _
    | error fault =>
      rw [(refused sound turn told).number]
      exact Nat.le_succ _
  | asks m late => exact (asked sound turn).2.1.ge
  | begins => exact (begun sound turn).1.number.ge
  | hears id reason => exact (heard sound turn).1.number.ge
  | loses => exact (lost sound turn).1.number.ge
  | clears => exact (cleared sound turn).1.number.ge

/-- What a publisher is told is the outcome its message ended with, or that it
waited too long for one. -/
theorem Answers.cases (answers : s.Answers m result) (sound : s.before.Sound) :
    (∃ outcome, result = outcome.result ∧ s.before.outbox.Stands m (.ended outcome)) ∨
      result = .error .timeout ∧ ∀ outcome, ¬s.before.outbox.Stands m (.ended outcome) := by
  obtain ⟨answer, ⟨late, turn⟩ | ⟨p, priority, late, turn, told⟩⟩ := answers
  · obtain ⟨_, _, _, sought, _⟩ := asked sound turn
    rw [answer] at sought
    generalize s.after.outbox = q at sought
    generalize found : some result = reply at sought
    cases sought with
    | @ended outcome _ ended _ =>
      cases found
      exact .inl ⟨outcome, rfl, ended⟩
    | gaveUp unended _ _ =>
      cases found
      exact .inr ⟨rfl, unended⟩
    | waits => contradiction
  · have taken := takenIn sound turn told
    have said := answer.symm.trans taken.answer
    refine .inr ⟨?_, fun outcome => Accepts.new ⟨priority, true, late, turn, told⟩ sound _⟩
    cases late <;> cases said
    rfl

/-- A publisher that has its answer leaves no message behind. -/
theorem Answers.gone (answers : s.Answers m result) (sound : s.before.Sound) (st : Standing) :
    ¬s.after.outbox.Stands m st := by
  obtain ⟨answer, ⟨late, turn⟩ | ⟨p, priority, late, turn, told⟩⟩ := answers
  · obtain ⟨_, _, _, sought, _⟩ := asked sound turn
    rw [answer] at sought
    generalize s.after.outbox = q at sought
    generalize found : some result = reply at sought
    cases sought with
    | ended _ all => exact fun stands => ((all m st).mp stands).2 rfl
    | gaveUp _ _ all => exact fun stands => ((all m st).mp stands).2 rfl
    | waits => contradiction
  · have taken := takenIn sound turn told
    have gave : s.GivesUp m := by
      refine ⟨?_, .inr ⟨p, priority, late, turn, told⟩⟩
      have said := answer.symm.trans taken.answer
      rw [taken.answer]
      cases late <;> cases said
      rfl
    obtain ⟨place, _, all⟩ := taken.placed
    intro stands
    rcases (all m st).mp stands with ⟨_, _, kept⟩ | ⟨before, _⟩
    · exact kept gave
    · exact Accepts.new ⟨priority, true, late, turn, told⟩ sound st before

theorem Answers.not_kept (answers : s.Answers m result) (sound : s.before.Sound) :
    m ∉ s.after.outbox.places := by
  intro kept
  obtain ⟨st, stands⟩ := (sound_after sound).outbox.stands kept
  exact answers.gone sound st stands

/-- A publisher waits for a message only from the step that took it in. -/
theorem awaited_arrives (sound : s.before.Sound) (waits : x ∈ s.after.awaited) :
    x ∈ s.before.awaited ∨ ∃ p, s.Accepts p x := by
  cases turn : s.turn with
  | other => exact .inl ((untouched sound turn).1.awaited ▸ waits)
  | submits p priority sync late =>
    cases told : s.accepted p priority sync with
    | error fault => exact .inl ((refused sound turn told).awaited ▸ waits)
    | ok m =>
      have taken := takenIn sound turn told
      rw [taken.awaited] at waits
      split at waits
      · rcases Multiset.mem_cons.mp waits with rfl | waited
        · exact .inr ⟨p, priority, sync, late, turn, told⟩
        · exact .inl waited
      · exact .inl waits
  | asks m late =>
    obtain ⟨_, _, _, _, others, split, awaited⟩ := asked sound turn
    rw [awaited] at waits
    rw [split]
    split at waits
    · exact .inl waits
    · exact .inl (Multiset.mem_cons_of_mem waits)
  | begins => exact .inl ((begun sound turn).1.awaited ▸ waits)
  | hears id reason => exact .inl ((heard sound turn).1.awaited ▸ waits)
  | loses => exact .inl ((lost sound turn).1.awaited ▸ waits)
  | clears => exact .inl ((cleared sound turn).1.awaited ▸ waits)

/-- A publisher waits for its message until it is told a result. -/
theorem awaited_stays (sound : s.before.Sound) (waited : x ∈ s.before.awaited) :
    x ∈ s.after.awaited ∨ ∃ result, s.Answers x result := by
  cases turn : s.turn with
  | other => exact .inl ((untouched sound turn).1.awaited ▸ waited)
  | submits p priority sync late =>
    cases told : s.accepted p priority sync with
    | error fault => exact .inl ((refused sound turn told).awaited ▸ waited)
    | ok m =>
      rw [(takenIn sound turn told).awaited]
      split
      · exact .inl (Multiset.mem_cons_of_mem waited)
      · exact .inl waited
  | asks m late =>
    obtain ⟨_, _, _, _, others, split, awaited⟩ := asked sound turn
    rw [split] at waited
    rw [awaited]
    cases answer : s.reply with
    | none => exact .inl waited
    | some result =>
      rcases Multiset.mem_cons.mp waited with rfl | waited
      · exact .inr ⟨result, answer, .inl ⟨late, turn⟩⟩
      · exact .inl waited
  | begins => exact .inl ((begun sound turn).1.awaited ▸ waited)
  | hears id reason => exact .inl ((heard sound turn).1.awaited ▸ waited)
  | loses => exact .inl ((lost sound turn).1.awaited ▸ waited)
  | clears => exact .inl ((cleared sound turn).1.awaited ▸ waited)

theorem Answers.unawaited (answers : s.Answers m result) (sound : s.before.Sound) :
    m ∉ s.after.awaited := by
  obtain ⟨answer, ⟨late, turn⟩ | ⟨p, priority, late, turn, told⟩⟩ := answers
  · obtain ⟨_, _, _, _, others, split, awaited⟩ := asked sound turn
    have single := sound.single
    rw [split] at single
    rw [awaited, answer]
    exact (Multiset.nodup_cons.mp single).1
  · have taken := takenIn sound turn told
    rw [taken.awaited, answer]
    intro waits
    have := sound.outbox.carry.drawn m (Multiset.mem_add.mpr (.inr waits))
    have := taken.numbered
    omega

theorem Answers.waited (answers : s.Answers m result) (sound : s.before.Sound) :
    m ∈ s.before.awaited ∨ ∃ p, s.Accepts p m := by
  obtain ⟨_, ⟨late, turn⟩ | ⟨p, priority, late, turn, told⟩⟩ := answers
  · obtain ⟨_, _, _, _, others, split, _⟩ := asked sound turn
    exact .inl (split ▸ Multiset.mem_cons_self m others)
  · exact .inr ⟨p, priority, true, late, turn, told⟩

/-- While a publisher is told something no message ends. -/
theorem Answers.not_ends (answers : s.Answers m result) : ¬s.Ends x outcome := by
  have quiet : (∃ n late, s.turn = .asks n late) ∨
      ∃ p priority sync late, s.turn = .submits p priority sync late := by
    obtain ⟨_, ⟨late, turn⟩ | ⟨p, priority, late, turn, _⟩⟩ := answers
    · exact .inl ⟨m, late, turn⟩
    · exact .inr ⟨p, priority, true, late, turn⟩
  have otherwise : ¬(s.Drains ∨ s.turn = .loses) := by
    rintro ((turn | ⟨id, reason, turn⟩) | turn) <;>
      rcases quiet with ⟨_, _, same⟩ | ⟨_, _, _, _, same⟩ <;>
      · have := turn.symm.trans same
        contradiction
  intro ends
  cases ends with
  | acknowledged heard => exact otherwise (.inl (.inr ⟨_, _, heard.1⟩))
  | refused offered => exact otherwise (.inl offered.1)
  | lost loses => exact otherwise (.inr loses.1)

/-- What an outbox keeps, it kept before, or it was taken in now. -/
theorem places_arrive (sound : s.before.Sound) (kept : m ∈ s.after.outbox.places) :
    m ∈ s.before.outbox.places ∨ ∃ p, s.Accepts p m := by
  obtain ⟨st, stands⟩ := (sound_after sound).outbox.stands kept
  rcases arrives sound stands with stood | placed
  · exact .inl stood.kept
  · cases placed with
    | waits accepts => exact .inr ⟨_, accepts⟩
    | flies takes =>
      rcases takes with ⟨accepts, _⟩ | ⟨offered, _⟩
      · exact .inr ⟨_, accepts⟩
      · exact .inl offered.2.waits.kept
    | ends ends =>
      rcases ends.stood with waits | ⟨id, flies⟩
      · exact .inl waits.kept
      · exact .inl flies.kept

/-- What is under way was under way before, or was taken in now. -/
theorem underway_arrives (sound : s.before.Sound) (underway : s.after.outbox.Underway m) :
    s.before.outbox.Underway m ∨ ∃ p, s.Accepts p m := by
  rcases underway with stands | ⟨id, stands⟩
  · rcases arrives sound stands with stood | placed
    · exact .inl (.inl stood)
    · cases placed with
      | waits accepts => exact .inr ⟨_, accepts⟩
  · rcases arrives sound stands with stood | placed
    · exact .inl (.inr ⟨id, stood⟩)
    · cases placed with
      | flies takes =>
        rcases takes with ⟨accepts, _⟩ | ⟨offered, _⟩
        · exact .inr ⟨_, accepts⟩
        · exact .inl (.inl offered.2.waits)

/-- What is there after a step was there before, or was taken in now. -/
theorem held_arrives (sound : s.before.Sound)
    (held : m ∈ s.after.outbox.places + s.after.awaited) :
    m ∈ s.before.outbox.places + s.before.awaited ∨ ∃ p, s.Accepts p m := by
  rcases Multiset.mem_add.mp held with kept | waits
  · exact (places_arrive sound kept).imp_left fun before => Multiset.mem_add.mpr (.inl before)
  · exact (awaited_arrives sound waits).imp_left fun before => Multiset.mem_add.mpr (.inr before)

end Step

end Courier
