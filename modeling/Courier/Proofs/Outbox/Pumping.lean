import Courier.Proofs.Outbox.Owners
import Courier.Proofs.Outbox.Room
import Courier.Rehearsal.Line
import Mathlib.Order.Bounds.Defs

/-! Sending from the queue, exactly. The messages at the front of the queue are tried one
after the other, and the answers of the transport, which may depend on anything, say what
becomes of them: which go in flight, which end, and how many are tried. -/
namespace Courier

variable {σ : Type}

abbrev Trial := Message × Except TransportFault PacketId

namespace Trial

def call (t : Trial) : Call := .publish t.1.publication t.2

def note (t : Trial) (p : Progress) : Progress :=
  match t.2 with
  | .ok id => p.number id
  | .error _ => t.1.settle .sendFailed p

def launched (t : Trial) : List (PacketId × Message) :=
  match t.2 with
  | .ok id => [(id, t.1)]
  | .error _ => []

def filed (t : Trial) : List (Nat × Message) :=
  match t.2 with
  | .ok _ => []
  | .error _ => t.1.filed

theorem mem_launched {t : Trial} {id : PacketId} {m : Message} :
    (id, m) ∈ t.launched ↔ t = (m, .ok id) := by
  obtain ⟨n, result⟩ := t
  cases result <;> simp [launched, and_comm, eq_comm]

theorem mem_filed {t : Trial} {seq : Nat} {m : Message} :
    (seq, m) ∈ t.filed ↔ (∃ fault, t = (m, .error fault)) ∧ seq = m.seq ∧ m.sync = true := by
  obtain ⟨n, result⟩ := t
  cases result with
  | ok id => simp [filed]
  | error fault =>
    simp only [filed, Message.mem_filed, Prod.mk.injEq, Except.error.injEq, exists_and_left,
      exists_eq', and_true]
    constructor
    · rintro ⟨rfl, same⟩
      exact ⟨rfl, same⟩
    · rintro ⟨rfl, same⟩
      exact ⟨rfl, same⟩

end Trial

def Wire.tryEach (w : Wire σ) : List Message → List Trial × Wire σ
  | [] => ([], w)
  | m :: rest =>
    let (result, w) := w.publish m.publication
    let (trials, w) := w.tryEach rest
    ((m, result) :: trials, w)

namespace Wire

theorem tryEach_append (w : Wire σ) (first second : List Message) :
    w.tryEach (first ++ second) =
      ((w.tryEach first).1 ++ ((w.tryEach first).2.tryEach second).1,
        ((w.tryEach first).2.tryEach second).2) := by
  induction first generalizing w with
  | nil => rfl
  | cons m rest ih =>
    simp only [List.cons_append, tryEach, ih]

theorem tryEach_messages (w : Wire σ) (ms : List Message) :
    (w.tryEach ms).1.map Prod.fst = ms := by
  induction ms generalizing w with
  | nil => rfl
  | cons m rest ih => exact congrArg (m :: ·) (ih _)

theorem tryEach_calls (w : Wire σ) (ms : List Message) :
    (w.tryEach ms).2.calls = w.calls ++ (w.tryEach ms).1.map Trial.call := by
  induction ms generalizing w with
  | nil => exact (List.append_nil _).symm
  | cons m rest ih =>
    refine (ih _).trans ?_
    exact List.append_assoc _ _ _

end Wire

namespace Outbox

variable {o p q : Outbox} {w : Wire σ} {held : Multiset Message} {m : Message}
  {ts ts' : List Trial} {rest : List Message} {k : Nat}

/-- The first `k` messages of the queue, each with the answer it would get in its turn. -/
def trials (o : Outbox) (w : Wire σ) (k : Nat) : List Trial := (w.tryEach (o.queue.take k)).1

def launches (ts : List Trial) : List (PacketId × Message) := ts.flatMap Trial.launched

def filings (ts : List Trial) : List (Nat × Message) := ts.flatMap Trial.filed

def noted (ts : List Trial) (m : Message) (p : Progress) : Progress :=
  ts.foldl (fun p t => noting t.1 t.note m p) p

/-- After `k` messages nothing is left to be tried, or no more may be in flight. -/
def Stops (o : Outbox) (w : Wire σ) (k : Nat) : Prop :=
  o.queue.drop k = [] ∨
    o.inFlightLimit ≤ (o.inFlight.insertEach (launches (o.trials w k))).size

theorem launches_append (ts ts' : List Trial) :
    launches (ts ++ ts') = launches ts ++ launches ts' :=
  List.flatMap_append

theorem filings_append (ts ts' : List Trial) :
    filings (ts ++ ts') = filings ts ++ filings ts' :=
  List.flatMap_append

theorem noted_append (ts ts' : List Trial) (m : Message) (p : Progress) :
    noted (ts ++ ts') m p = noted ts' m (noted ts m p) :=
  List.foldl_append

theorem noted_of_untried (untried : m ∉ ts.map Prod.fst) (p : Progress) :
    noted ts m p = p := by
  induction ts generalizing p with
  | nil => rfl
  | cons t rest ih =>
    obtain ⟨apart, untried⟩ := not_or.mp (mt List.mem_cons.mpr untried)
    exact (ih untried _).trans (if_neg (Ne.symm apart))

/-- A message that is tried once is noted once. -/
theorem noted_of_tried {result : Except TransportFault PacketId}
    (distinct : (ts.map Prod.fst).Nodup) (tried : (m, result) ∈ ts) (p : Progress) :
    noted ts m p = Trial.note (m, result) p := by
  obtain ⟨before, after, rfl⟩ := List.append_of_mem tried
  rw [List.map_append, List.map_cons] at distinct
  have apart := (List.nodup_cons.mp (List.nodup_middle.mp distinct)).1
  rw [List.mem_append, not_or] at apart
  rw [noted_append, noted_of_untried apart.1]
  exact (noted_of_untried apart.2 _).trans (if_pos rfl)

theorem mem_launches {id : PacketId} : (id, m) ∈ launches ts ↔ (m, .ok id) ∈ ts := by
  simp only [launches, List.mem_flatMap, Trial.mem_launched, exists_eq_right]

theorem not_mem_launches {id : PacketId} (unsent : ∀ m, (m, .ok id) ∉ ts) :
    id ∉ (launches ts).map Prod.fst := by
  intro key
  obtain ⟨⟨_, m⟩, launched, rfl⟩ := List.mem_map.mp key
  exact unsent m (mem_launches.mp launched)

theorem mem_filings {seq : Nat} : (seq, m) ∈ filings ts ↔
    (∃ fault, (m, .error fault) ∈ ts) ∧ seq = m.seq ∧ m.sync = true := by
  simp only [filings, List.mem_flatMap, Trial.mem_filed]
  constructor
  · rintro ⟨t, member, ⟨fault, rfl⟩, same⟩
    exact ⟨⟨fault, member⟩, same⟩
  · rintro ⟨⟨fault, member⟩, same⟩
    exact ⟨_, member, ⟨fault, rfl⟩, same⟩

theorem filings_keys (ts : List Trial) :
    ((filings ts).map Prod.fst).Sublist ((ts.map Prod.fst).map Message.seq) := by
  induction ts with
  | nil => exact .refl _
  | cons t rest ih =>
    have one : (t.filed.map Prod.fst).Sublist [t.1.seq] := by
      unfold Trial.filed
      split
      · exact List.nil_sublist _
      · exact t.1.filed_keys
    rw [filings, List.flatMap_cons, List.map_append, List.map_cons, List.map_cons]
    exact one.append ih

structure Tried (o : Outbox) (held : Multiset Message) (ts : List Trial) (p : Outbox) :
    Prop where
  becomes : o.Becomes held (noted ts) p held
  queue : o.queue = ts.map Prod.fst ++ p.queue
  inFlight : p.inFlight = o.inFlight.insertEach (launches ts)
  finished : p.finished = o.finished.insertEach (filings ts)
  setup : p.setup = o.setup

namespace Tried

theorem nil (owned : o.Owned held) : Tried o held [] o := ⟨owned.refl, rfl, rfl, rfl, rfl⟩

theorem trans (first : Tried o held ts p) (second : Tried p held ts' q) :
    Tried o held (ts ++ ts') q where
  becomes := (first.becomes.trans second.becomes).congr fun m _ =>
    (noted_append ts ts' m _).symm
  queue := by rw [first.queue, second.queue, List.map_append, List.append_assoc]
  inFlight := by
    rw [second.inFlight, first.inFlight, launches_append, Table.insertEach_append]
  finished := by
    rw [second.finished, first.finished, filings_append, Table.insertEach_append]
  setup := second.setup.trans first.setup

/-- The transport took the front of the queue. -/
theorem sent (owned : o.Owned held) (front : o.queue = m :: rest) (id : PacketId) :
    Tried o held [(m, .ok id)] ((({ o with queue := rest } : Outbox).launch m id).release m) := by
  have popped := owned.without (p := { o with queue := rest }) rfl (places_pop front)
  have flown := popped.trans (popped.owned.launch id)
  refine ⟨flown.trans flown.owned.release, ?_, ?_, ?_, ?_⟩
  · exact front.trans (congrArg (m :: ·) (launch_queue { o with queue := rest } m id).symm)
  · exact launch_inFlight _ _ _
  · exact releaseEach_finished _
  · exact (release_setup _ _).trans (launch_setup _ _ _)

/-- The transport refused the front of the queue. -/
theorem refused (owned : o.Owned held) (front : o.queue = m :: rest) (fault : TransportFault) :
    Tried o held [(m, .error fault)]
      (({ o with queue := rest } : Outbox).finish m .sendFailed) := by
  have popped := owned.without (p := { o with queue := rest }) rfl (places_pop front)
  refine ⟨popped.trans (popped.owned.finish .sendFailed), ?_, ?_, ?_, ?_⟩
  · exact front.trans
      (congrArg (m :: ·) (finish_queue { o with queue := rest } m .sendFailed).symm)
  · exact finish_inFlight _ _ _
  · refine (finish_finished _ _ _).trans ?_
    simp only [filings, Trial.filed, List.flatMap_cons, List.flatMap_nil, List.append_nil]
  · exact finish_setup _ _ _

end Tried

/-- The first number at which a search that failed before ends is found from there on. -/
theorem isLeast_add {P Q : Nat → Prop} {n k : Nat} (before : ∀ j < n, ¬P j)
    (behind : ∀ j, P (n + j) ↔ Q j) (least : IsLeast {j | Q j} k) :
    IsLeast {j | P j} (n + k) := by
  refine ⟨(behind k).mpr least.1, ?_⟩
  intro j stops
  by_contra below
  by_cases early : j < n
  · exact before j early stops
  · obtain ⟨i, rfl⟩ := Nat.exists_eq_add_of_le (Nat.le_of_not_lt early)
    have := least.2 ((behind i).mp stops)
    omega

theorem stops_zero_iff (o : Outbox) (w : Wire σ) :
    o.Stops w 0 ↔ o.queue = [] ∨ o.isFlightFull = true := by
  rw [isFlightFull, decide_eq_true_eq]
  rfl

namespace Tried

theorem queue_eq (tried : Tried o held (o.trials w k) p) : p.queue = o.queue.drop k := by
  have split := tried.queue
  rw [trials, Wire.tryEach_messages] at split
  exact List.append_cancel_left (split.symm.trans (List.take_append_drop k o.queue).symm)

/-- Whoever goes on behind the messages that were tried gets the answers that are due. -/
theorem trials_add (tried : Tried o held (o.trials w k) p) (j : Nat) :
    o.trials w (k + j) = o.trials w k ++ p.trials (w.tryEach (o.queue.take k)).2 j := by
  rw [trials, trials, trials, List.take_add, Wire.tryEach_append, tried.queue_eq]

theorem stops_add (tried : Tried o held (o.trials w k) p) (j : Nat) :
    o.Stops w (k + j) ↔ p.Stops (w.tryEach (o.queue.take k)).2 j := by
  have limit := (setup_eq_iff.mp tried.setup).2.1
  rw [Stops, Stops, tried.queue_eq, List.drop_drop, limit, tried.inFlight, tried.trials_add,
    launches_append, Table.insertEach_append]

end Tried

/-- The queue was sent from until it was empty or no more might be in flight, which took
`k` messages and not fewer. -/
structure Pumps (o : Outbox) (held : Multiset Message) (w : Wire σ) (k : Nat)
    (r : Outbox × Wire σ) : Prop where
  bounded : k ≤ o.queue.length
  least : IsLeast {j | o.Stops w j} k
  tried : Tried o held (o.trials w k) r.1
  wire : r.2 = (w.tryEach (o.queue.take k)).2

theorem Pumps.of_stops {w : Wire σ} (owned : o.Owned held) (stops : o.Stops w 0) :
    Pumps o held w 0 (o, w) :=
  ⟨Nat.zero_le _, ⟨stops, fun _ _ => Nat.zero_le _⟩, .nil owned, rfl⟩

/-- One message is tried, and the rest follows. -/
theorem Pumps.cons {r : Outbox × Wire σ} {v : Wire σ} {result : Except TransportFault PacketId}
    (front : o.queue = m :: rest) (room : o.isFlightFull = false)
    (answer : w.publish m.publication = (result, v)) (tried : Tried o held [(m, result)] q)
    (others : Pumps q held v k r) : Pumps o held w (1 + k) r := by
  have one : w.tryEach (o.queue.take 1) = ([(m, result)], v) := by
    simp only [front, List.take_succ_cons, List.take_zero, Wire.tryEach, answer]
  have tried : Tried o held (o.trials w 1) q := by
    rw [trials, one]
    exact tried
  have goesOn : ∀ j < 1, ¬o.Stops w j := by
    intro j first stops
    obtain rfl : j = 0 := by omega
    rcases (o.stops_zero_iff w).mp stops with empty | full
    · rw [front] at empty
      contradiction
    · rw [room] at full
      contradiction
  have queue := tried.queue_eq
  have later : (w.tryEach (o.queue.take 1)).2 = v := by rw [one]
  refine ⟨?_, ?_, ?_, ?_⟩
  · have bounded := others.bounded
    rw [queue, List.length_drop, front, List.length_cons] at bounded
    rw [front, List.length_cons]
    omega
  · refine isLeast_add goesOn (fun j => ?_) others.least
    rw [tried.stops_add, later]
  · rw [tried.trials_add, later]
    exact tried.trans others.tried
  · rw [others.wire, List.take_add, Wire.tryEach_append, later, queue]

theorem sendQueue_pumps (ms : List Message) (o : Outbox) (w : Wire σ)
    (owned : ({ o with queue := ms } : Outbox).Owned held) :
    ∃ k, Pumps { o with queue := ms } held w k (sendQueue ms o w) := by
  induction ms generalizing o w with
  | nil => exact ⟨0, .of_stops owned (.inl rfl)⟩
  | cons m rest ih =>
    unfold sendQueue
    split
    · rename_i full
      exact ⟨0, .of_stops owned ((stops_zero_iff _ w).mpr (.inr full))⟩
    · rename_i room
      have room : ({ o with queue := m :: rest } : Outbox).isFlightFull = false :=
        Bool.eq_false_iff.mpr room
      unfold send
      obtain ⟨result, v, answer⟩ : ∃ result v, w.publish m.publication = (result, v) :=
        ⟨_, _, rfl⟩
      rw [answer]
      cases result with
      | ok id =>
        have tried := Tried.sent owned rfl id
        rw [launch_requeue, launch_requeue] at tried
        obtain ⟨k, others⟩ := ih ((o.launch m id).release m) v tried.becomes.owned
        exact ⟨1 + k, .cons rfl room answer tried others⟩
      | error fault =>
        have tried := Tried.refused owned rfl fault
        rw [finish_requeue, finish_requeue] at tried
        obtain ⟨k, others⟩ := ih (o.finish m .sendFailed) v tried.becomes.owned
        exact ⟨1 + k, .cons rfl room answer tried others⟩

/-- While a session is up the queue is sent from. -/
theorem pump_pumps (owned : o.Owned held) (online : o.connected = true) (w : Wire σ) :
    ∃ k, Pumps o held w k (o.pump w) := by
  rw [pump, if_pos online]
  exact sendQueue_pumps o.queue o w owned

theorem pump_of_offline (offline : o.connected = false) (w : Wire σ) : o.pump w = (o, w) := by
  rw [pump, offline]
  rfl

theorem Owned.pump (owned : o.Owned held) (w : Wire σ) : (o.pump w).1.Owned held := by
  cases online : o.connected with
  | false =>
    rw [pump_of_offline online]
    exact owned
  | true =>
    obtain ⟨_, pumps⟩ := pump_pumps owned online w
    exact pumps.tried.becomes.owned

structure QueueSent (o : Outbox) (held : Multiset Message) (w : Wire σ) (k : Nat) (p : Outbox)
    (v : Wire σ) : Prop where
  bounded : k ≤ o.queue.length
  least : IsLeast {j | o.Stops w j} k
  wire : v = (w.tryEach (o.queue.take k)).2
  calls : v.calls = w.calls ++ (o.trials w k).map Trial.call
  tried : (o.trials w k).map Prod.fst = o.queue.take k
  queue : p.queue = o.queue.drop k
  /-- The last message under a number is in flight under it. -/
  launched : ∀ before m id after, o.trials w k = before ++ (m, .ok id) :: after →
    id ∉ (launches after).map Prod.fst → p.inFlight.get? id = some m
  /-- A message whose number was given out again is nowhere. -/
  replaced : ∀ before m id after, o.trials w k = before ++ (m, .ok id) :: after →
    id ∈ (launches after).map Prod.fst → m ∉ p.places
  numbered : ∀ m id, (m, .ok id) ∈ o.trials w k → m ∈ p.places + held →
    p.progress m = (o.progress m).number id
  inFlight : ∀ id, (∀ m, (m, .ok id) ∉ o.trials w k) → p.inFlight.get? id = o.inFlight.get? id
  /-- What has ended is what had ended before and what was refused while somebody waits. -/
  finished : ∀ seq m, p.finished.get? seq = some m ↔ o.finished.get? seq = some m ∨
    (∃ fault, (m, .error fault) ∈ o.trials w k) ∧ m.sync = true ∧ seq = m.seq
  concluded : ∀ m fault, (m, .error fault) ∈ o.trials w k → m.sync = true →
    p.progress m = (o.progress m).conclude .sendFailed
  dropped : ∀ m fault, (m, .error fault) ∈ o.trials w k → m.sync = false → m ∉ p.places
  others : ∀ m ∈ p.places + held, m ∉ o.queue.take k → p.progress m = o.progress m
  setup : p.setup = o.setup
  owned : p.Owned held

section Exactly

variable {r : Outbox × Wire σ}

theorem trials_messages (o : Outbox) (w : Wire σ) (k : Nat) :
    (o.trials w k).map Prod.fst = o.queue.take k :=
  w.tryEach_messages _

/-- A message is tried once, with one answer. -/
theorem trials_unique {result result' : Except TransportFault PacketId} (single : o.queue.Nodup)
    (tried : (m, result) ∈ o.trials w k) (again : (m, result') ∈ o.trials w k) :
    result' = result := by
  have once : ((o.trials w k).map Prod.fst).Nodup := by
    rw [trials_messages]
    exact single.sublist (List.take_sublist k _)
  exact congrArg Prod.snd (List.inj_on_of_nodup_map once again tried rfl)

theorem mem_take_of_tried {result : Except TransportFault PacketId}
    (tried : (m, result) ∈ o.trials w k) : m ∈ o.queue.take k := by
  rw [← trials_messages o w]
  exact List.mem_map_of_mem (f := Prod.fst) tried

/-- A message whose number is given out again does not keep it. -/
theorem Tried.replaced {before after : List Trial} {id : PacketId}
    (tried : Tried o held (before ++ (m, .ok id) :: after) p)
    (once : ((before ++ (m, .ok id) :: after).map Prod.fst).Nodup)
    (again : id ∈ (launches after).map Prod.fst) : p.inFlight.get? id ≠ some m := by
  obtain ⟨n, given, found⟩ := Table.get?_insertEach_of_present
    (t := o.inFlight.insertEach (launches (before ++ [(m, .ok id)]))) again
  have split : before ++ (m, .ok id) :: after = before ++ [(m, .ok id)] ++ after :=
    List.append_cons _ _ _
  rw [tried.inFlight, split, launches_append, Table.insertEach_append, found]
  intro same
  cases same
  rw [List.map_append, List.map_cons] at once
  have absent := (List.nodup_cons.mp (List.nodup_append.mp once).2.1).1
  exact absent (List.mem_map_of_mem (f := Prod.fst) (mem_launches.mp given))

/-- A message that waited alone and was tried is kept afterwards only where its answer
puts it. -/
theorem Pumps.kept_of_tried {result : Except TransportFault PacketId} (pumps : Pumps o held w k r)
    (single : o.queue.Nodup)
    (alone : ∀ m ∈ o.queue, m ∉ o.inFlight.contents ∧ m ∉ o.finished.contents)
    (tried : (m, result) ∈ o.trials w k) (kept : m ∈ r.1.places) :
    (∃ id, result = .ok id ∧ r.1.inFlight.get? id = some m) ∨
      (∃ fault, result = .error fault) ∧ m.sync = true := by
  have front := mem_take_of_tried tried
  obtain ⟨unflown, unended⟩ := alone m (List.mem_of_mem_take front)
  rcases mem_places.mp kept with waits | ⟨id, flies⟩ | ⟨seq, found⟩
  · rw [pumps.tried.queue_eq] at waits
    rw [← List.take_append_drop k o.queue] at single
    exact absurd rfl ((List.nodup_append.mp single).2.2 m front m waits)
  · left
    refine ⟨id, ?_, flies⟩
    rw [pumps.tried.inFlight] at flies
    rcases Table.mem_of_get?_insertEach flies with launched | before
    · exact trials_unique single (mem_launches.mp launched) tried
    · exact absurd (Table.mem_contents.mpr ⟨id, before⟩) unflown
  · right
    rw [pumps.tried.finished] at found
    rcases Table.mem_of_get?_insertEach found with filed | before
    · obtain ⟨⟨fault, failed⟩, _, sync⟩ := mem_filings.mp filed
      exact ⟨⟨fault, trials_unique single failed tried⟩, sync⟩
    · exact absurd (Table.mem_contents.mpr ⟨seq, before⟩) unended

/-- What is refused is filed under numbers nothing was filed under before. -/
theorem Pumps.finished_iff (pumps : Pumps o held w k r)
    (distinct : (o.queue.map Message.seq).Nodup)
    (unkeyed : ∀ m ∈ o.queue, o.finished.get? m.seq = none) (seq : Nat) :
    r.1.finished.get? seq = some m ↔ o.finished.get? seq = some m ∨
      (∃ fault, (m, .error fault) ∈ o.trials w k) ∧ m.sync = true ∧ seq = m.seq := by
  have keys := filings_keys (o.trials w k)
  rw [trials_messages] at keys
  have within := keys.trans ((List.take_sublist k o.queue).map Message.seq)
  have free : ∀ key ∈ (filings (o.trials w k)).map Prod.fst, o.finished.get? key = none := by
    intro key filed
    obtain ⟨n, waits, rfl⟩ := List.mem_map.mp (within.subset filed)
    exact unkeyed n waits
  rw [pumps.tried.finished, Table.get?_insertEach_of_free (distinct.sublist within) free,
    mem_filings, and_comm (a := seq = m.seq)]

/-- Whatever the transport answers, even if it gives out numbers again, and whatever was
noted before of the messages that wait. -/
theorem queue_sent_exactly (owned : o.Owned held) (distinct : (o.queue.map Message.seq).Nodup)
    (alone : ∀ m ∈ o.queue, m ∉ o.inFlight.contents ∧ m ∉ o.finished.contents)
    (unkeyed : ∀ m ∈ o.queue, o.finished.get? m.seq = none) (w : Wire σ) :
    (o.connected = false → o.pump w = (o, w)) ∧
      (o.connected = true → ∃ k, QueueSent o held w k (o.pump w).1 (o.pump w).2) := by
  refine ⟨fun offline => pump_of_offline offline w, fun online => ?_⟩
  obtain ⟨k, pumps⟩ := pump_pumps owned online w
  have tried := pumps.tried
  have single : o.queue.Nodup := distinct.of_map
  have once : ((o.trials w k).map Prod.fst).Nodup := by
    rw [trials_messages]
    exact single.sublist (List.take_sublist k _)
  have finished := fun seq m => pumps.finished_iff (m := m) distinct unkeyed seq
  refine ⟨k, ⟨pumps.bounded, pumps.least, pumps.wire, ?_, trials_messages o w k, tried.queue_eq,
    ?_, ?_, ?_, ?_, finished, ?_, ?_, ?_, tried.setup, tried.becomes.owned⟩⟩
  · rw [pumps.wire]
    exact w.tryEach_calls _
  · intro before m id after split last
    rw [tried.inFlight, split, launches_append]
    exact Table.get?_insertEach_last last
  · intro before m id after split again kept
    have member : (m, .ok id) ∈ o.trials w k := by
      rw [split]
      exact List.mem_append_right _ List.mem_cons_self
    rcases pumps.kept_of_tried single alone member kept with ⟨_, same, flies⟩ | ⟨⟨_, other⟩, _⟩
    · cases same
      rw [split] at tried once
      exact tried.replaced once again flies
    · contradiction
  · intro m id sent kept
    exact (tried.becomes.progress m kept).trans (noted_of_tried once sent _)
  · intro id unsent
    rw [tried.inFlight]
    exact Table.get?_insertEach_of_absent (not_mem_launches unsent)
  · intro m fault failed sync
    have kept : m ∈ (o.pump w).1.places + held :=
      Multiset.mem_add.mpr (.inl (mem_places_of_finished
        ((finished m.seq m).mpr (.inr ⟨⟨fault, failed⟩, sync, rfl⟩))))
    refine (tried.becomes.progress m kept).trans ((noted_of_tried once failed _).trans ?_)
    exact if_pos sync
  · intro m fault failed async kept
    rcases pumps.kept_of_tried single alone failed kept with ⟨id, other, _⟩ | ⟨_, sync⟩
    · contradiction
    · rw [async] at sync
      contradiction
  · intro m kept untried
    refine (tried.becomes.progress m kept).trans (noted_of_untried ?_ _)
    rw [trials_messages]
    exact untried

open Rehearsal in
/-- A number in flight is given out again, a message somebody waits for and one nobody waits
for are refused, one has a number already, and the flight is full before the queue is
empty. -/
theorem queue_sent_exactly_reused :
    ∃ (o : Outbox) (held : Multiset Message) (w : Wire Line), o.Owned held ∧
      (o.queue.map Message.seq).Nodup ∧
      (∀ m ∈ o.queue, m ∉ o.inFlight.contents ∧ m ∉ o.finished.contents) ∧
      (∀ m ∈ o.queue, o.finished.get? m.seq = none) ∧ o.connected = true ∧
      (o.pump w).1.queue.length = 1 ∧ (o.pump w).1.inFlight.size = 3 ∧
      (o.pump w).1.finished.size = 1 ∧
      ((o.connected = false → o.pump w = (o, w)) ∧
        (o.connected = true → ∃ k, QueueSent o held w k (o.pump w).1 (o.pump w).2)) := by
  let message (slot : Nat) (topic : String) (sync : Bool) : Message :=
    .parked slot slot ⟨topic, [], .atLeastOnce, none⟩ .low sync
  let held : Multiset Message := {message 2 "b" true, message 4 "a" true}
  let taken : Table Nat (Holding Progress) :=
    ⟨[(0, ⟨1, { id := some 1 }⟩), (1, ⟨1, {}⟩), (2, ⟨2, {}⟩), (3, ⟨1, {}⟩), (4, ⟨2, {}⟩),
      (5, ⟨1, { id := some 9 }⟩), (6, ⟨1, {}⟩)], by decide⟩
  let o : Outbox :=
    { slots := ⟨8, [7], taken⟩
      connected := true
      inFlightLimit := 3
      queue := [message 1 "a" false, message 2 "b" true, message 3 "b" false,
        message 4 "a" true, message 5 "a" false, message 6 "a" false]
      inFlight := ⟨[(1, message 0 "a" false)], by decide⟩ }
  let refuses : Line :=
    { trouble := fun target =>
        if target = .publish then some ⟨.notConnected, some ["b"]⟩ else none }
  let w : Wire Line := { Line.wire with state := refuses }
  have owned : o.Owned held := by decide +kernel
  have distinct : (o.queue.map Message.seq).Nodup := by decide +kernel
  have alone : ∀ m ∈ o.queue, m ∉ o.inFlight.contents ∧ m ∉ o.finished.contents := by
    decide +kernel
  have unkeyed : ∀ m ∈ o.queue, o.finished.get? m.seq = none := by decide +kernel
  refine ⟨o, held, w, owned, distinct, alone, unkeyed, rfl, ?_, ?_, ?_,
    queue_sent_exactly owned distinct alone unkeyed w⟩
  · decide +kernel
  · decide +kernel
  · decide +kernel

end Exactly

end Outbox

end Courier
