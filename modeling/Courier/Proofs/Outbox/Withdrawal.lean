import Courier.Proofs.Outbox.Owners

/-! Giving a message up, exactly: the message is gone from wherever it was, and every other
message stays where it is, under its key and as far as it has come. The transport's number
tells where a message is only as long as no other message is in flight under it. -/
namespace Courier.Outbox

variable {o p : Outbox} {held : Multiset Message} {m : Message}

structure Withdrawn (o : Outbox) (held : Multiset Message) (m : Message) (p : Outbox) : Prop where
  gone : m ∉ p.places
  queue : p.queue = o.queue.filter (· != m)
  inFlight : ∀ n ≠ m, ∀ id, p.inFlight.get? id = some n ↔ o.inFlight.get? id = some n
  finished : ∀ n ≠ m, ∀ seq, p.finished.get? seq = some n ↔ o.finished.get? seq = some n
  progress : ∀ n ∈ p.places + held, p.progress n = o.progress n
  setup : p.setup = o.setup
  owned : p.Owned held

theorem queue_without (absent : m ∉ o.queue) : o.queue = o.queue.filter (· != m) := by
  refine (List.filter_eq_self.mpr fun n waits => bne_iff_ne.mpr ?_).symm
  rintro rfl
  exact absent waits

/-- A message that is in no place is not missed. -/
theorem Withdrawn.of_absent (owned : o.Owned held) (absent : m ∉ o.places) :
    Withdrawn o held m o :=
  ⟨absent, queue_without fun waits => absent (mem_places_of_queue waits), fun _ _ _ => .rfl,
    fun _ _ _ => .rfl, fun _ _ => rfl, rfl, owned⟩

/-- A message that is taken out of its one place is let go. -/
theorem Withdrawn.of_taken (owned : o.Owned held) (once : o.places.Nodup)
    (slots : p.slots = o.slots) (split : o.places = m ::ₘ p.places)
    (queue : m ∉ p.queue → p.queue = o.queue.filter (· != m))
    (inFlight : ∀ n ≠ m, ∀ id, p.inFlight.get? id = some n ↔ o.inFlight.get? id = some n)
    (finished : ∀ n ≠ m, ∀ seq, p.finished.get? seq = some n ↔ o.finished.get? seq = some n)
    (setup : p.setup = o.setup) : Withdrawn o held m (p.release m) := by
  have taken := owned.without slots split
  have left := taken.trans taken.owned.release
  have gone : m ∉ p.places := (Multiset.nodup_cons.mp (split ▸ once)).1
  exact ⟨gone, queue fun waits => gone (mem_places_of_queue waits), inFlight, finished,
    left.progress, (release_setup p m).trans setup, left.owned⟩

/-- Even where another message is in flight under the number noted of this one. -/
theorem withdraw_exactly (owned : o.Owned held) (known : m ∈ o.places + held)
    (once : o.places.Nodup) (apart : ∀ n ∈ o.places, n.seq = m.seq → n = m)
    (numbered : ∀ id n, o.inFlight.get? id = some n → (o.progress n).id = some id)
    (keyed : ∀ seq n, o.finished.get? seq = some n → seq = n.seq) :
    Withdrawn o held m (o.withdraw m) := by
  have withdraws : o.Withdraws m (o.withdraw m) := by
    refine withdraw_withdraws (fun n found => ?_) fun n kept same => ?_
    · exact apart n (mem_places_of_finished found) (keyed _ n found).symm
    · exact owned.apart n (Multiset.mem_add.mpr (.inl kept)) m known same
  generalize o.withdraw m = p at withdraws
  cases withdraws with
  | ended found =>
    exact .of_taken owned once rfl (places_collect found) queue_without (fun _ _ _ => .rfl)
      (fun n other => Table.get?_erase_of_ne found other) rfl
  | flying flies =>
    exact .of_taken owned once rfl (places_land flies) queue_without
      (fun n other => Table.get?_erase_of_ne flies other) (fun _ _ _ => .rfl) rfl
  | waiting waits =>
    have single : o.queue.Nodup :=
      Multiset.coe_nodup.mp (Multiset.nodup_add.mp (Multiset.nodup_add.mp once).1).1
    exact .of_taken owned once rfl (places_leave waits) (fun _ => single.erase_eq_filter m)
      (fun _ _ _ => .rfl) (fun _ _ _ => .rfl) rfl
  | absent unended grounded idle =>
    refine .of_absent owned fun kept => ?_
    rcases mem_places.mp kept with waits | ⟨id, flies⟩ | ⟨seq, found⟩
    · exact idle waits
    · rw [flight?_of_flying flies (numbered id m flies)] at grounded
      contradiction
    · rw [← keyed seq m found, found] at unended
      contradiction

/-- One message lost its place in flight when its number was given out again: giving it up
takes nothing from the other one, which is given up next. -/
theorem withdraw_exactly_replaced :
    ∃ (o : Outbox) (held : Multiset Message) (replaced m : Message), o.Owned held ∧
      replaced ∈ o.places + held ∧ m ∈ o.places + held ∧ o.places.Nodup ∧
      (∀ n ∈ o.places, n.seq = replaced.seq → n = replaced) ∧
      (∀ n ∈ o.places, n.seq = m.seq → n = m) ∧
      (∀ id n, o.inFlight.get? id = some n → (o.progress n).id = some id) ∧
      (∀ seq n, o.finished.get? seq = some n → seq = n.seq) ∧
      (o.progress replaced).id = (o.progress m).id ∧
      (o.withdraw replaced).inFlight.size = 1 ∧ (o.withdraw m).inFlight.size = 0 ∧
      Withdrawn o held replaced (o.withdraw replaced) ∧ Withdrawn o held m (o.withdraw m) := by
  let message (slot : Nat) (sync : Bool) : Message :=
    .parked slot slot ⟨"a", [], .atLeastOnce, none⟩ .low sync
  let replaced := message 0 true
  let m := message 1 true
  let ended := message 2 true
  let waits := message 3 false
  let held : Multiset Message := {replaced, m, ended}
  let taken : Table Nat (Holding Progress) :=
    ⟨[(0, ⟨1, { id := some 7 }⟩), (1, ⟨2, { id := some 7 }⟩),
      (2, ⟨2, ⟨some 5, some .delivered⟩⟩), (3, ⟨1, {}⟩)], by decide⟩
  let o : Outbox :=
    { slots := ⟨5, [4], taken⟩
      inFlightLimit := 1
      queue := [waits]
      inFlight := ⟨[(7, m)], by decide⟩
      finished := ⟨[(2, ended)], by decide⟩ }
  have owned : o.Owned held := by decide +kernel
  have once : o.places.Nodup := by decide +kernel
  have apart : ∀ n ∈ o.places, n.seq = replaced.seq → n = replaced := by decide +kernel
  have apart' : ∀ n ∈ o.places, n.seq = m.seq → n = m := by decide +kernel
  have numbered : ∀ id n, o.inFlight.get? id = some n → (o.progress n).id = some id := by
    intro id n flies
    obtain ⟨rfl, rfl⟩ : id = 7 ∧ n = m := by
      simpa [o] using Table.get?_eq_some_iff.mp flies
    rfl
  have keyed : ∀ seq n, o.finished.get? seq = some n → seq = n.seq := by
    intro seq n found
    obtain ⟨rfl, rfl⟩ : seq = 2 ∧ n = ended := by
      simpa [o] using Table.get?_eq_some_iff.mp found
    rfl
  have known : replaced ∈ o.places + held := by decide +kernel
  have known' : m ∈ o.places + held := by decide +kernel
  refine ⟨o, held, replaced, m, owned, known, known', once, apart, apart', numbered, keyed, rfl,
    ?_, ?_, withdraw_exactly owned known once apart numbered keyed,
    withdraw_exactly owned known' once apart' numbered keyed⟩
  · decide +kernel
  · decide +kernel

end Courier.Outbox
