import Courier.Proofs.Outbox.Placing

/-! Messages that leave before they are acknowledged: with the session they were
meant for, because their publisher gives them up, or all together. A publisher
that looks for its outcome takes the message out if it has ended. -/
namespace Courier.Outbox

variable {o : Outbox} {held : Multiset Message} {m x : Message} {next : Nat} {st : Standing}

/-- A message that ends with the session: it waits or is in flight, and its
guarantee does not reach further. -/
def Loses (o : Outbox) (m : Message) : Prop :=
  m.qos = .atMostOnce ∧ (o.Stands m .waiting ∨ ∃ id, o.Stands m (.flying id))

theorem Sound.finishEach {ms : List Message} (sound : o.Sound (ms + held) next)
    (outcome : Outcome) (distinct : ms.Nodup) (absent : ∀ m ∈ ms, m ∉ o.places)
    (unsettled : ∀ m ∈ ms, (o.progress m).outcome = none) :
    (o.finishEach ms outcome).Sound held next ∧
      ∀ x st, (o.finishEach ms outcome).Stands x st ↔
        x ∈ ms ∧ x.sync = true ∧ st = .ended outcome ∨ o.Stands x st := by
  induction ms generalizing o with
  | nil =>
    rw [Multiset.coe_nil, Multiset.zero_add] at sound
    refine ⟨sound, ?_⟩
    intro x st
    simp only [List.not_mem_nil, false_and, false_or]
    rfl
  | cons m ms ih =>
    rw [← Multiset.cons_coe, Multiset.cons_add] at sound
    obtain ⟨fresh, distinct⟩ := List.nodup_cons.mp distinct
    obtain ⟨ended, ends, others⟩ :=
      sound.finish (absent m List.mem_cons_self) (unsettled m List.mem_cons_self) outcome
    have apart : ∀ n ∈ ms, n ≠ m := fun n member same => fresh (same ▸ member)
    have away : ∀ n ∈ ms, n ∉ (o.finish m outcome).places := by
      intro n member kept
      obtain ⟨st, stands⟩ := ended.stands kept
      rcases (ends n st).mp stands with ⟨same, _⟩ | before
      · exact apart n member same
      · exact absent n (List.mem_cons_of_mem m member) before.kept
    have unended : ∀ n ∈ ms, ((o.finish m outcome).progress n).outcome = none := by
      intro n member
      have mine : n ∈ o.places + (ms + held) :=
        Multiset.mem_add.mpr (.inr (Multiset.mem_add.mpr (.inl member)))
      rw [others n mine (apart n member)]
      exact unsettled n (List.mem_cons_of_mem m member)
    obtain ⟨last, stands⟩ := ih ended distinct away unended
    refine ⟨last, ?_⟩
    intro x st
    refine (stands x st).trans ?_
    rw [ends, List.mem_cons]
    constructor
    · rintro (⟨member, settled⟩ | ⟨rfl, settled⟩ | before)
      · exact .inl ⟨.inr member, settled⟩
      · exact .inl ⟨.inl rfl, settled⟩
      · exact .inr before
    · rintro (⟨rfl | member, settled⟩ | before)
      · exact .inr (.inl ⟨rfl, settled⟩)
      · exact .inl ⟨member, settled⟩
      · exact .inr (.inr before)

def leaving (o : Outbox) : List Message :=
  o.inFlight.values.filter (!·.qos.outlivesSession) ++ o.queue.filter (!·.qos.outlivesSession)

def remaining (o : Outbox) : Outbox :=
  { o with
    inFlight := o.inFlight.retain fun _ m => m.qos.outlivesSession
    queue := o.queue.filter (·.qos.outlivesSession) }

theorem mem_leaving_iff : x ∈ o.leaving ↔ o.Loses x := by
  have kind : (!x.qos.outlivesSession) = true ↔ x.qos = .atMostOnce := by
    cases qos : x.qos <;> decide
  have flies : x ∈ o.inFlight.values ↔ ∃ id, o.inFlight.get? id = some x := Table.mem_contents
  simp only [leaving, List.mem_append, List.mem_filter, kind, flies, Loses, Stands,
    and_comm (b := x.qos = .atMostOnce)]
  rw [← and_or_left, or_comm]

theorem places_leaving (o : Outbox) : o.places = o.leaving + o.remaining.places := by
  have halves : ∀ l : List Message, (l : Multiset Message) =
      (l.filter (!·.qos.outlivesSession) : List Message) +
        (l.filter (·.qos.outlivesSession) : List Message) := by
    intro l
    rw [Multiset.coe_add, Multiset.coe_eq_coe]
    refine (List.Perm.trans List.perm_append_comm ?_).symm
    exact List.filter_append_perm (fun m : Message => m.qos.outlivesSession) l
  have waits := halves o.queue
  have flights : o.inFlight.contents =
      (o.inFlight.values.filter (!·.qos.outlivesSession) : List Message) +
        o.remaining.inFlight.contents := by
    have kept : o.remaining.inFlight.contents =
        (o.inFlight.values.filter (·.qos.outlivesSession) : List Message) := by
      refine (Table.contents_retain o.inFlight _).trans ?_
      simp only [Table.contents, Multiset.filter_coe, Bool.decide_eq_true]
    rw [kept]
    exact halves o.inFlight.values
  have finished : o.remaining.finished = o.finished := rfl
  have queue : o.remaining.queue = o.queue.filter (·.qos.outlivesSession) := rfl
  have swap : ∀ a b c : Multiset Message, a + (b + c) = b + (a + c) := by
    intro a b c
    rw [← Multiset.add_assoc, Multiset.add_comm a, Multiset.add_assoc]
  rw [places, places, waits, flights, finished, queue, leaving, ← Multiset.coe_add]
  simp only [Multiset.add_assoc]
  rw [swap (o.queue.filter (·.qos.outlivesSession) : List Message),
    swap (o.queue.filter (!·.qos.outlivesSession) : List Message)]

/-- The end of a session ends what does not outlive it, and moves nothing else. -/
theorem Sound.purge (sound : o.Sound held next) :
    o.purge.Sound held next ∧ ∀ x st, o.purge.Stands x st ↔
      o.Loses x ∧ x.sync = true ∧ st = .ended .connectionLost ∨
        o.Stands x st ∧ ¬o.Loses x := by
  obtain ⟨left, absent, stands⟩ := sound.without (p := o.remaining) o.leaving rfl
    o.places_leaving (fun n waits => List.mem_of_mem_filter waits)
    (fun id n flies => (Table.get?_retain.mp flies).1) fun _ _ found => found
  have distinct : o.leaving.Nodup := by
    have once := sound.once
    rw [o.places_leaving] at once
    exact Multiset.coe_nodup.mp (Multiset.nodup_add.mp once).1
  have unsettled : ∀ m ∈ o.leaving, (o.remaining.progress m).outcome = none := by
    intro m member
    obtain ⟨_, waits | ⟨id, flies⟩⟩ := mem_leaving_iff.mp member
    · exact congrArg Progress.outcome (sound.waiting m waits)
    · exact congrArg Progress.outcome (sound.flying id m flies)
  obtain ⟨ended, ends⟩ := left.finishEach .connectionLost distinct absent unsettled
  refine ⟨ended, fun x st => (ends x st).trans ?_⟩
  rw [stands, Multiset.mem_coe, mem_leaving_iff]

theorem removeFirst_of_some {α : Type} [DecidableEq α] {p : α → Bool} {a : α} {l rest : List α}
    (found : removeFirst p l = some (a, rest)) : p a = true ∧ a ∈ l ∧ rest = l.erase a := by
  induction l generalizing rest with
  | nil => contradiction
  | cons b l ih =>
    unfold removeFirst at found
    split at found
    · cases found
      exact ⟨‹_›, List.mem_cons_self, (List.erase_cons_head ..).symm⟩
    · rename_i fails
      obtain ⟨⟨c, left⟩, inner, same⟩ := Option.map_eq_some_iff.mp found
      cases same
      obtain ⟨passes, member, rfl⟩ := ih inner
      have other : b ≠ a := by
        rintro rfl
        exact fails passes
      refine ⟨passes, List.mem_cons_of_mem b member, ?_⟩
      rw [List.erase_cons_tail (beq_false_of_ne other ▸ Bool.false_ne_true)]

theorem removeFirst_of_none {α : Type} {p : α → Bool} {l : List α}
    (none : removeFirst p l = none) : ∀ a ∈ l, p a = false := by
  induction l with
  | nil => exact fun a member => absurd member List.not_mem_nil
  | cons b l ih =>
    unfold removeFirst at none
    split at none
    · contradiction
    · rename_i fails
      intro a member
      rcases List.mem_cons.mp member with rfl | member
      · exact Bool.eq_false_iff.mpr fails
      · exact ih (Option.map_eq_none_iff.mp none) a member

/-- A message that is given up is taken out of where it is: finished, in flight under its
own number, or waiting. It may be nowhere. -/
inductive Withdraws (o : Outbox) (m : Message) : Outbox → Prop where
  | ended (found : o.finished.get? m.seq = some m) :
      Withdraws o m (({ o with finished := o.finished.erase m.seq } : Outbox).release m)
  | flying {id : PacketId} (flies : o.inFlight.get? id = some m) :
      Withdraws o m (({ o with inFlight := o.inFlight.erase id } : Outbox).release m)
  | waiting (waits : m ∈ o.queue) :
      Withdraws o m (({ o with queue := o.queue.erase m } : Outbox).release m)
  | absent (unended : o.finished.get? m.seq = none) (grounded : o.flight? m = none)
      (idle : m ∉ o.queue) : Withdraws o m o

theorem withdraw_withdraws (ended : ∀ n, o.finished.get? m.seq = some n → n = m)
    (sole : ∀ n ∈ o.places, n.slot = m.slot → n = m) : o.Withdraws m (o.withdraw m) := by
  unfold Outbox.withdraw
  split
  · rename_i n found
    obtain rfl := ended n found
    exact .ended found
  · rename_i unended
    split
    · rename_i id flight
      obtain ⟨_, test⟩ := Option.filter_eq_some_iff.mp flight
      obtain ⟨n, flies, slot⟩ := (Option.any_eq_true _ _).mp test
      obtain rfl := sole n (mem_places_of_inFlight flies) (of_decide_eq_true slot)
      exact .flying flies
    · rename_i grounded
      split
      · rename_i n rest found
        obtain ⟨test, waits, rfl⟩ := removeFirst_of_some found
        obtain rfl := sole n (mem_places_of_queue waits) (of_decide_eq_true test)
        exact .waiting waits
      · rename_i none
        refine .absent unended grounded fun waits => ?_
        simpa using removeFirst_of_none none m waits

theorem Sound.withdraws (sound : o.Sound held next) (mine : m ∈ held) :
    o.Withdraws m (o.withdraw m) := by
  have identify : ∀ n ∈ o.places, n.slot = m.slot ∨ n.seq = m.seq → n = m :=
    fun n kept same => sound.carry.apart n (Multiset.mem_add.mpr (.inl kept)) m
      (Multiset.mem_add.mpr (.inr mine)) same
  refine withdraw_withdraws (fun n found => ?_) fun n kept same => identify n kept (.inl same)
  exact identify n (mem_places_of_finished found) (.inr (sound.ended _ n found).1.symm)

/-- A message in flight is found under the number noted of it. -/
theorem flight?_of_flying {id : PacketId} (flies : o.inFlight.get? id = some m)
    (noted : (o.progress m).id = some id) : o.flight? m = some id := by
  simp [flight?, noted, flies]

/-- A message that is given up stands nowhere afterwards, and no other is moved. -/
theorem Sound.withdraw (sound : o.Sound held next) (mine : m ∈ held) :
    (o.withdraw m).Sound held next ∧
      ∀ x st, (o.withdraw m).Stands x st ↔ o.Stands x st ∧ x ≠ m := by
  have withdraws := sound.withdraws mine
  generalize o.withdraw m = p at withdraws
  cases withdraws with
  | ended found =>
    obtain ⟨taken, _, stands⟩ := sound.collect found
    exact ⟨taken.release, fun x st => taken.stands_release.trans (stands x st)⟩
  | flying flies =>
    obtain ⟨taken, _, stands⟩ := sound.land flies
    exact ⟨taken.release, fun x st => taken.stands_release.trans (stands x st)⟩
  | waiting waits =>
    obtain ⟨taken, _, stands⟩ := sound.without_one (p := { o with queue := o.queue.erase m }) rfl
      (places_leave waits) (fun _ member => List.mem_of_mem_erase member)
      (fun _ _ flies => flies) fun _ _ found => found
    exact ⟨taken.release, fun x st => taken.stands_release.trans (stands x st)⟩
  | absent unended grounded idle =>
    refine ⟨sound, fun x st => ⟨fun stands => ⟨stands, ?_⟩, And.left⟩⟩
    rintro rfl
    cases st with
    | waiting => exact idle stands
    | flying id =>
      rw [flight?_of_flying stands (congrArg Progress.id (sound.flying id x stands))] at grounded
      contradiction
    | ended outcome =>
      rw [stands.1] at unended
      contradiction

/-- What a publisher that holds a message finds in the outbox: the result it goes
on with, if it need not wait, and the outbox without the message. -/
def seek (o : Outbox) (m : Message) (late : Bool) : Option (Except ClientFault Unit) × Outbox :=
  match o.collect? m.seq with
  | some (ended, p) =>
    (some ((p.progress ended).outcome.getD .sendFailed).result, (p.release ended).release m)
  | none => if late then (some (.error .timeout), (o.withdraw m).release m) else (none, o)

inductive Sought (o : Outbox) (m : Message) (late : Bool) :
    Option (Except ClientFault Unit) → Outbox → Prop where
  | ended {outcome : Outcome} {q : Outbox} (found : o.Stands m (.ended outcome))
      (stands : ∀ x st, q.Stands x st ↔ o.Stands x st ∧ x ≠ m) :
      Sought o m late (some outcome.result) q
  | gaveUp {q : Outbox} (unended : ∀ outcome, ¬o.Stands m (.ended outcome))
      (expired : late = true)
      (stands : ∀ x st, q.Stands x st ↔ o.Stands x st ∧ x ≠ m) :
      Sought o m late (some (.error .timeout)) q
  | waits (unended : ∀ outcome, ¬o.Stands m (.ended outcome)) (early : late = false) :
      Sought o m late none o

theorem Sound.seek (sound : o.Sound (m ::ₘ held) next) (late : Bool) :
    o.Sought m late (o.seek m late).1 (o.seek m late).2 ∧
      (o.seek m late).2.Sound (if (o.seek m late).1 = none then m ::ₘ held else held) next := by
  have mine : m ∈ m ::ₘ held := Multiset.mem_cons_self m held
  cases found : o.finished.get? m.seq with
  | some n =>
    have same : m = n :=
      sound.carry.apart m (Multiset.mem_add.mpr (.inr mine)) n
        (Multiset.mem_add.mpr (.inl (mem_places_of_finished found)))
        (.inr (sound.ended _ n found).1)
    subst same
    obtain ⟨_, _, outcome, noted⟩ := sound.ended _ m found
    obtain ⟨taken, _, stands⟩ := sound.collect found
    have settled : (({ o with finished := o.finished.erase m.seq } : Outbox).progress m).outcome =
        some outcome := noted
    have looked : o.seek m late = (some outcome.result,
        (({ o with finished := o.finished.erase m.seq } : Outbox).release m).release m) := by
      simp only [Outbox.seek, collect?, found, Option.map_some, settled, Option.getD_some]
    rw [looked]
    refine ⟨.ended ⟨found, noted⟩ ?_, taken.release.release⟩
    intro x st
    rw [taken.release.stands_release, taken.stands_release, stands]
  | none =>
    have unended : ∀ outcome, ¬o.Stands m (.ended outcome) := by
      intro outcome stands
      rw [stands.1] at found
      contradiction
    cases late with
    | false =>
      have looked : o.seek m false = (none, o) := by
        simp only [Outbox.seek, collect?, found, Option.map_none, Bool.false_eq_true, if_false]
      rw [looked]
      exact ⟨.waits unended rfl, sound⟩
    | true =>
      have looked : o.seek m true = (some (.error .timeout), (o.withdraw m).release m) := by
        simp only [Outbox.seek, collect?, found, Option.map_none, if_true]
      rw [looked]
      obtain ⟨left, stands⟩ := sound.withdraw mine
      refine ⟨.gaveUp unended rfl ?_, left.release⟩
      intro x st
      rw [left.stands_release, stands]

/-- A message that nothing has ended stays unless its publisher is too late. -/
theorem Sought.of_unended {late : Bool} {result : Option (Except ClientFault Unit)} {q : Outbox}
    (sought : o.Sought m late result q) (unended : ∀ outcome, ¬o.Stands m (.ended outcome)) :
    result = (if late then some (.error .timeout) else none) ∧
      ∀ x st, q.Stands x st ↔ o.Stands x st ∧ ¬(x = m ∧ late = true) := by
  cases sought with
  | ended found => exact absurd found (unended _)
  | gaveUp _ expired stands =>
    subst expired
    refine ⟨rfl, ?_⟩
    intro x st
    simp only [stands, and_true, ne_eq]
  | waits _ early =>
    subst early
    refine ⟨rfl, ?_⟩
    intro x st
    simp only [Bool.false_eq_true, and_false, not_false_eq_true, and_true]

theorem Sound.clear (sound : o.Sound held next) :
    o.clear.Sound held next ∧ ∀ x st, ¬o.clear.Stands x st := by
  let bare : Outbox := { o with queue := [], inFlight := ∅, finished := ∅ }
  obtain ⟨left, absent, stands⟩ := sound.without (p := bare) o.places rfl
    (Multiset.add_zero _).symm (fun _ waits => absurd waits List.not_mem_nil)
    (fun _ _ flies => absurd flies (by simp [bare])) fun _ _ found => absurd found (by simp [bare])
  have all : ((o.queue ++ o.inFlight.values ++ o.finished.values : List Message) :
      Multiset Message) = o.places := by
    rw [← Multiset.coe_add, ← Multiset.coe_add]
    rfl
  rw [← all] at left
  refine ⟨left.releaseEach, ?_⟩
  intro x st here
  have before : bare.Stands x st :=
    (stands_congr (releaseEach_queue _) (releaseEach_inFlight _) (releaseEach_finished _)
      fun n kept => left.progress_releaseEach kept).mp here
  obtain ⟨stood, outside⟩ := (stands x st).mp before
  exact outside stood.kept

end Courier.Outbox
