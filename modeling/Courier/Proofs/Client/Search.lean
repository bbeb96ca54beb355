import Courier.Proofs.Client.Events
import Courier.Proofs.Insertions

/-! One search of the network thread for a broker that can be reached. The broker in use is
dialled again first, if it is still registered; then the candidates are dialled in the order in
which they are enumerated, until one is reached. -/
namespace Courier

abbrev Dial := (BrokerId × Broker) × Except TransportFault Unit

def Dial.call (terms : SessionTerms) (dial : Dial) : Call := .connect dial.1.2 terms dial.2

/-- Candidates dialled one after the other: the first that is reached ends it. Where none is, the
last fault is what remains. -/
inductive Dialled : List (BrokerId × Broker) → TransportFault → List Dial →
    Except TransportFault BrokerId → Prop where
  | none {last : TransportFault} : Dialled [] last [] (.error last)
  | reached {id : BrokerId} {broker : Broker} {rest : List (BrokerId × Broker)}
      {last : TransportFault} :
      Dialled ((id, broker) :: rest) last [((id, broker), .ok ())] (.ok id)
  | failed {candidate : BrokerId × Broker} {rest : List (BrokerId × Broker)}
      {last fault : TransportFault} {dials : List Dial} {result : Except TransportFault BrokerId}
      (further : Dialled rest fault dials result) :
      Dialled (candidate :: rest) last ((candidate, .error fault) :: dials) result

namespace Dialled

variable {candidates : List (BrokerId × Broker)} {last fault : TransportFault} {dials : List Dial}
  {result : Except TransportFault BrokerId} {id : BrokerId}

theorem in_order (dialled : Dialled candidates last dials result) :
    dials.map Prod.fst <+: candidates := by
  induction dialled with
  | none => exact List.nil_prefix
  | reached => exact List.prefix_append [_] _
  | failed _ ih => exact (List.prefix_cons_inj _).mpr ih

/-- Whoever was dialled before the last was not reached. -/
theorem stops (dialled : Dialled candidates last dials result) :
    ∀ dial ∈ dials.dropLast, dial.2 ≠ .ok () := by
  induction dialled with
  | none | reached => exact List.forall_mem_nil _
  | @failed candidate _ _ fault dials _ _ ih =>
    cases dials with
    | nil => exact List.forall_mem_nil _
    | cons next further =>
      rw [List.dropLast_cons_cons]
      exact List.forall_mem_cons.mpr ⟨nofun, ih⟩

theorem reached_iff (dialled : Dialled candidates last dials result) :
    (∃ broker, ((id, broker), .ok ()) ∈ dials) ↔ result = .ok id := by
  induction dialled with
  | none => simp
  | reached => simp [eq_comm]
  | failed _ ih => simpa using ih

theorem succeeds_iff (dialled : Dialled candidates last dials result) :
    (∃ dial ∈ dials, dial.2 = .ok ()) ↔ ∃ id, result = .ok id := by
  simp only [← dialled.reached_iff]
  constructor
  · rintro ⟨⟨⟨id, broker⟩, _⟩, member, rfl⟩
    exact ⟨id, broker, member⟩
  · rintro ⟨id, broker, member⟩
    exact ⟨_, member, rfl⟩

/-- Where none was reached all have been dialled, and the last of them leaves its fault. -/
theorem exhausted (dialled : Dialled candidates last dials (.error fault)) :
    dials.map Prod.fst = candidates ∧
      (dials.getLast?.map Prod.snd).getD (.error last) = .error fault := by
  generalize outcome : Except.error fault = result at dialled
  induction dialled with
  | none =>
    cases outcome
    exact ⟨rfl, rfl⟩
  | reached => contradiction
  | @failed candidate rest last latest dials result _ ih =>
    obtain ⟨all, final⟩ := ih outcome
    refine ⟨congrArg (candidate :: ·) all, ?_⟩
    rw [List.getLast?_cons]
    cases further : dials.getLast? with
    | none => rwa [further] at final
    | some dial => rwa [further] at final

end Dialled

def Network.found? : Network → Option (Except TransportFault Unit)
  | opened => some (.ok ())
  | unreached last => some (.error last)
  | _ => none

theorem Wire.connect_told {σ : Type} {w v : Wire σ} {broker : Broker} {terms : SessionTerms}
    {answer : Except TransportFault Unit} (told : w.connect broker terms = (answer, v)) :
    answer = (w.transport.connect broker terms w.state).1 ∧ v.transport = w.transport ∧
      v.calls = w.calls ++ [.connect broker terms answer] := by
  cases told
  exact ⟨rfl, rfl, rfl⟩

theorem Wire.reconnect_told {σ : Type} {w v : Wire σ} {answer : Except TransportFault Unit}
    (told : w.reconnect = (answer, v)) :
    v.transport = w.transport ∧ v.calls = w.calls ++ [.reconnect answer] := by
  cases told
  exact ⟨rfl, rfl⟩

namespace Client

variable {σ : Type} {c d e : Client σ} {result other : Except TransportFault Unit}

inductive Searches : Client σ → Client σ → Except TransportFault Unit → Prop where
  | ended {c : Client σ} {result : Except TransportFault Unit}
      (found : c.network.found? = some result) : Searches c c result
  | goesOn {c d : Client σ} {result : Except TransportFault Unit}
      (nothing : c.network.found? = none) (further : Searches c.advance d result) :
      Searches c d result

theorem Searches.step (nothing : c.network.found? = none) (next : c.advance = e)
    (further : e.Searches d result) : c.Searches d result :=
  .goesOn nothing (next ▸ further)

theorem Searches.unique (one : c.Searches d result) (two : c.Searches e other) :
    d = e ∧ result = other := by
  induction one with
  | ended found =>
    cases two with
    | ended found' => exact ⟨rfl, Option.some.inj (found.symm.trans found')⟩
    | goesOn nothing => rw [nothing] at found; contradiction
  | goesOn nothing _ ih =>
    cases two with
    | ended found => rw [nothing] at found; contradiction
    | goesOn _ further => exact ih further

section Stages

variable {rest candidates : List (BrokerId × Broker)} {last : TransportFault}

/-- The candidates were dialled in turn, and nothing else was done. -/
structure Tries (c d : Client σ) (candidates : List (BrokerId × Broker)) (last : TransportFault)
    (dials : List Dial) (result : Except TransportFault BrokerId) : Prop where
  searches : c.Searches d (result.map fun _ => ())
  dialled : Dialled candidates last dials result
  calls : d.wire.calls = c.wire.calls ++ dials.map (Dial.call c.terms)
  answered : ∀ dial ∈ dials, ∃ state, dial.2 = (c.wire.transport.connect dial.1.2 c.terms state).1
  noted : d.shared.lastReached = result.toOption.or c.shared.lastReached
  others : d = { c with
    wire := d.wire
    network := d.network
    shared := { c.shared with lastReached := d.shared.lastReached } }

theorem tries_dialling (here : c.network = .dialling rest last) :
    ∃ d dials result, c.Tries d rest last dials result := by
  induction rest generalizing c last with
  | nil =>
    have next : c.advance = { c with network := .unreached last } := by
      simp only [advance, here, dial]
    have nothing : c.network.found? = none := by rw [here]; rfl
    exact ⟨_, [], .error last, .step nothing next (.ended rfl), .none, (List.append_nil _).symm,
      List.forall_mem_nil _, rfl, rfl⟩
  | cons candidate rest ih =>
    obtain ⟨id, broker⟩ := candidate
    have nothing : c.network.found? = none := by rw [here]; rfl
    cases told : c.wire.connect broker c.terms with
    | mk answer w =>
      obtain ⟨answered, transport, calls⟩ := Wire.connect_told told
      cases answer with
      | ok _ =>
        have next : c.advance = { c with wire := w, network := .reached id } := by
          simp only [advance, here, dial, told]
        refine ⟨{ c with
          wire := w
          network := .opened
          shared := { c.shared with lastReached := some id } }, [((id, broker), .ok ())], .ok id,
          ?_, .reached, calls, ?_, rfl, rfl⟩
        · exact .step nothing next (.goesOn rfl (.ended rfl))
        · exact List.forall_mem_singleton.mpr ⟨_, answered⟩
      | error fault =>
        have next : c.advance = { c with wire := w, network := .dialling rest fault } := by
          simp only [advance, here, dial, told]
        obtain ⟨d, dials, result, further⟩ :=
          ih (c := { c with wire := w, network := .dialling rest fault }) rfl
        refine ⟨d, ((id, broker), .error fault) :: dials, result,
          .step nothing next further.searches, .failed further.dialled, ?_, ?_, further.noted,
          further.others⟩
        · rw [further.calls, calls, List.append_assoc]
          rfl
        · refine List.forall_mem_cons.mpr ⟨⟨_, answered⟩, ?_⟩
          have others := further.answered
          simp only [transport] at others
          exact others

theorem tries_listing (here : c.network = .listing) :
    ∃ d dials result, c.Tries d c.shared.brokers.entries .notConnected dials result := by
  have next : c.advance =
      { c with network := .dialling c.shared.brokers.entries .notConnected } := by
    simp only [advance, here]
  obtain ⟨d, dials, result, tries⟩ := tries_dialling
    (c := { c with network := .dialling c.shared.brokers.entries .notConnected }) rfl
  have nothing : c.network.found? = none := by rw [here]; rfl
  exact ⟨d, dials, result, .step nothing next tries.searches, tries.dialled, tries.calls,
    tries.answered, tries.noted, tries.others⟩

end Stages

/-- What a search that began with `c` and ended with `d` has come to: `again` is the result of
dialling the broker in use again, if that was done, and `dials` are the candidates dialled. -/
structure Search (c d : Client σ) (result : Except TransportFault Unit)
    (again : Option (Except TransportFault Unit)) (dials : List Dial) : Prop where
  calls : d.wire.calls =
    c.wire.calls ++ (again.toList.map Call.reconnect ++ dials.map (Dial.call c.terms))
  registered : again.isSome = true ↔
    ∃ id, c.shared.lastReached = some id ∧ c.shared.brokers.contains id = true
  redialled : ∀ answer, again = some answer → answer = c.wire.reconnect.1
  answered : ∀ dial ∈ dials, ∃ state, dial.2 = (c.wire.transport.connect dial.1.2 c.terms state).1
  spared : again = some (.ok ()) → dials = []
  in_order : dials.map Prod.fst <+: c.shared.brokers.entries
  once : (dials.map (·.1.1)).Nodup
  stops : ∀ dial ∈ dials.dropLast, dial.2 ≠ .ok ()
  succeeds : result = .ok () ↔ again = some (.ok ()) ∨ ∃ dial ∈ dials, dial.2 = .ok ()
  noted : ∀ id broker, ((id, broker), .ok ()) ∈ dials → d.shared.lastReached = some id
  kept : (∀ dial ∈ dials, dial.2 ≠ .ok ()) → d.shared.lastReached = c.shared.lastReached
  exhausted : ∀ fault, result = .error fault →
    dials.map Prod.fst = c.shared.brokers.entries ∧
      (dials.getLast?.map Prod.snd).getD (.error .notConnected) = .error fault
  others : d = { c with
    wire := d.wire
    network := d.network
    shared := { c.shared with lastReached := d.shared.lastReached } }

section Assembly

variable {w : Wire σ} {again : Option (Except TransportFault Unit)} {dials : List Dial}
  {reached : Except TransportFault BrokerId}

/-- The broker in use was not reached again, and the candidates were dialled. -/
theorem Search.of_tries (calls : w.calls = c.wire.calls ++ again.toList.map Call.reconnect)
    (transport : w.transport = c.wire.transport)
    (registered : again.isSome = true ↔
      ∃ id, c.shared.lastReached = some id ∧ c.shared.brokers.contains id = true)
    (redialled : ∀ answer, again = some answer → answer = c.wire.reconnect.1)
    (missed : again ≠ some (.ok ()))
    (tries : Tries { c with wire := w, network := .listing } d c.shared.brokers.entries
      .notConnected dials reached) :
    c.Search d (reached.map fun _ => ()) again dials where
  calls := by rw [tries.calls, calls, List.append_assoc]
  registered := registered
  redialled := redialled
  answered := by
    have answered := tries.answered
    simp only [transport] at answered
    exact answered
  spared again := absurd again missed
  in_order := tries.dialled.in_order
  once := by
    have keys := tries.dialled.in_order.sublist.map Prod.fst
    rw [List.map_map] at keys
    exact c.shared.brokers.keys_nodup.sublist keys
  stops := tries.dialled.stops
  succeeds := by
    rw [tries.dialled.succeeds_iff]
    cases reached <;> simp [Except.map, missed]
  noted id broker member := by
    have reached := tries.dialled.reached_iff.mp ⟨broker, member⟩
    rw [tries.noted, reached]
    rfl
  kept none := by
    cases reached with
    | ok id =>
      obtain ⟨broker, member⟩ := tries.dialled.reached_iff.mpr rfl
      exact absurd rfl (none _ member)
    | error fault => exact tries.noted
  exhausted fault failed := by
    cases reached with
    | ok id => contradiction
    | error latest =>
      cases failed
      exact tries.dialled.exhausted
  others := tries.others

/-- The broker in use was reached again. -/
theorem Search.of_reconnect (told : c.wire.reconnect = (.ok (), w))
    (registered : ∃ id, c.shared.lastReached = some id ∧ c.shared.brokers.contains id = true) :
    c.Search { c with wire := w, network := .opened } (.ok ()) (some (.ok ())) [] where
  calls := (Wire.reconnect_told told).2
  registered := ⟨fun _ => registered, fun _ => rfl⟩
  redialled answer same := by
    rw [told]
    exact (Option.some.inj same).symm
  answered := List.forall_mem_nil _
  spared _ := rfl
  in_order := List.nil_prefix
  once := List.nodup_nil
  stops := List.forall_mem_nil _
  succeeds := ⟨fun _ => .inl rfl, fun _ => rfl⟩
  noted _ _ member := absurd member List.not_mem_nil
  kept _ := rfl
  exhausted _ failed := by contradiction
  others := rfl

theorem searched (here : c.network = .choosing) :
    ∃ d result again dials, c.Searches d result ∧ c.Search d result again dials := by
  have nothing : c.network.found? = none := by rw [here]; rfl
  by_cases registered : ∃ id, c.shared.lastReached = some id ∧ c.shared.brokers.contains id = true
  · have next : c.advance = { c with network := .reconnecting } := by
      simp only [advance, here, chooseBroker, if_pos ((Option.any_eq_true _ _).mpr registered)]
    cases told : c.wire.reconnect with
    | mk answer w =>
      obtain ⟨transport, calls⟩ := Wire.reconnect_told told
      cases answer with
      | ok _ =>
        have after : { c with network := .reconnecting }.advance =
            { c with wire := w, network := .opened } := by
          simp only [advance, dialAgain, told]
        exact ⟨_, .ok (), _, _, .step nothing next (.step rfl after (.ended rfl)),
          .of_reconnect told registered⟩
      | error fault =>
        have after : { c with network := .reconnecting }.advance =
            { c with wire := w, network := .listing } := by
          simp only [advance, dialAgain, told]
        obtain ⟨d, dials, reached, tries⟩ :=
          tries_listing (c := { c with wire := w, network := .listing }) rfl
        refine ⟨d, _, some (.error fault), dials,
          .step nothing next (.step rfl after tries.searches),
          .of_tries calls transport ?_ ?_ ?_ tries⟩
        · exact ⟨fun _ => registered, fun _ => rfl⟩
        · intro answer same
          rw [told]
          exact (Option.some.inj same).symm
        · exact fun same => by cases same
  · have next : c.advance = { c with network := .listing } := by
      simp only [advance, here, chooseBroker, if_neg (mt (Option.any_eq_true _ _).mp registered)]
    obtain ⟨d, dials, reached, tries⟩ := tries_listing (c := { c with network := .listing }) rfl
    refine ⟨d, _, none, dials, .step nothing next tries.searches,
      .of_tries (List.append_nil _).symm rfl ?_ ?_ ?_ tries⟩
    · exact ⟨fun some => by contradiction, fun some => absurd some registered⟩
    · exact fun _ same => by contradiction
    · exact fun same => by contradiction

end Assembly

section Order

variable {again : Option (Except TransportFault Unit)} {dials : List Dial}
  {reachable : Broker → Bool}

/-- Where it depends on the broker alone who can be reached, a search that does not reach the
broker in use again succeeds if some candidate can be. -/
theorem Search.succeeds_steady (search : c.Search d result again dials)
    (steady : ∀ broker state,
      (c.wire.transport.connect broker c.terms state).1.toBool = reachable broker) :
    result = .ok () ↔ again = some (.ok ()) ∨
      ∃ id broker, c.shared.brokers.get? id = some broker ∧ reachable broker = true := by
  have told : ∀ dial ∈ dials, dial.2.toBool = reachable dial.1.2 := by
    intro dial member
    obtain ⟨state, answer⟩ := search.answered dial member
    rw [answer, steady]
  constructor
  · intro ok
    rcases search.succeeds.mp ok with same | ⟨⟨⟨id, broker⟩, answer⟩, member, rfl⟩
    · exact .inl same
    · have listed := search.in_order.subset (List.mem_map_of_mem (f := Prod.fst) member)
      exact .inr ⟨id, broker, Table.get?_eq_some_iff.mpr listed, (told _ member).symm⟩
  · rintro (same | ⟨id, broker, found, up⟩)
    · exact search.succeeds.mpr (.inl same)
    · cases outcome : result with
      | ok _ => rfl
      | error fault =>
        -- All have been dialled, this one among them.
        have listed := Table.get?_eq_some_iff.mp found
        rw [← (search.exhausted fault outcome).1] at listed
        obtain ⟨⟨candidate, answer⟩, member, same⟩ := List.mem_map.mp listed
        obtain rfl : candidate = (id, broker) := same
        cases answer with
        | ok _ => exact outcome.symm.trans (search.succeeds.mpr (.inr ⟨_, member, rfl⟩))
        | error _ => exact absurd ((told _ member).trans up) Bool.false_ne_true

def withBrokers (c : Client σ) (brokers : Table BrokerId Broker) : Client σ :=
  { c with shared := { c.shared with brokers } }

theorem Search.again_iff (search : c.Search d result again dials) :
    again = some (.ok ()) ↔ c.wire.reconnect.1 = .ok () ∧
      ∃ id, c.shared.lastReached = some id ∧ c.shared.brokers.contains id = true := by
  rw [← search.registered]
  cases dialled : again with
  | none => simp
  | some answer => simp [search.redialled answer dialled]

/-- A search comes to an end, and to nothing else than this: the broker in use is dialled again,
first and once, if it is still registered, and if that succeeds nothing else is done. Otherwise
the candidates are dialled in the order in which they are listed, none of them twice, and the
first that is reached ends it and is the one in use from then on. Where none is reached all have
been dialled, the last fault remains and the one in use is who it was. Where it depends on
the broker alone who can be reached, the order of the candidates has no say in whether
the search succeeds. -/
theorem search_exact (here : c.network = .choosing) :
    (∃ d result, c.Searches d result) ∧
    (∀ d result, c.Searches d result → ∃ again dials, c.Search d result again dials) ∧
    ∀ reachable : Broker → Bool,
      (∀ broker state,
        (c.wire.transport.connect broker c.terms state).1.toBool = reachable broker) →
      ∀ brokers : Table BrokerId Broker,
        (∀ id, brokers.get? id = c.shared.brokers.get? id) →
        ∀ d result e other, c.Searches d result → (c.withBrokers brokers).Searches e other →
          (result = .ok () ↔ other = .ok ()) := by
  have comes {c : Client σ} (here : c.network = .choosing) :
      ∀ d result, c.Searches d result → ∃ again dials, c.Search d result again dials := by
    intro d result searches
    obtain ⟨e, other, again, dials, ended, search⟩ := searched here
    obtain ⟨rfl, rfl⟩ := searches.unique ended
    exact ⟨again, dials, search⟩
  refine ⟨?_, comes here, ?_⟩
  · obtain ⟨d, result, _, _, searches, _⟩ := searched here
    exact ⟨d, result, searches⟩
  · intro reachable steady brokers same d result e other one two
    obtain ⟨_, _, first⟩ := comes here d result one
    obtain ⟨_, _, second⟩ := comes (c := c.withBrokers brokers) here e other two
    rw [first.succeeds_steady steady, second.succeeds_steady steady, first.again_iff,
      second.again_iff]
    simp only [withBrokers, Table.contains, same]

open Rehearsal in
/-- The broker in use is registered and cannot be reached again, nor can the first two of three;
listed in another order, the third is reached at once. -/
theorem search_exact_last :
    ∃ (c d e : Client Line) (again : Option (Except TransportFault Unit)) (dials : List Dial)
      (brokers : Table BrokerId Broker) (other : Except TransportFault Unit),
      c.network = .choosing ∧ c.Searches d (.ok ()) ∧ c.Search d (.ok ()) again dials ∧
      c.shared.lastReached = some 1 ∧ d.shared.lastReached = some 2 ∧ d.wire.calls.length = 4 ∧
      (∀ id, brokers.get? id = c.shared.brokers.get? id) ∧
      (c.withBrokers brokers).Searches e other ∧ e.wire.calls.length = 2 ∧ other = .ok () := by
  let transport : Transport Line := { Line.transport with
    connect := fun broker _ l =>
      (if broker.port == 3 then .ok () else .error (.io "unreachable"), l) }
  let c : Client Line := { client with
    network := .choosing
    wire := { transport, state := {} }
    shared := { client.shared with
      brokers := ⟨[(0, ⟨"a", 1⟩), (1, ⟨"b", 2⟩), (2, ⟨"c", 3⟩)], by decide⟩
      lastReached := some 1 } }
  let brokers : Table BrokerId Broker :=
    ⟨[(2, ⟨"c", 3⟩), (0, ⟨"a", 1⟩), (1, ⟨"b", 2⟩)], by decide⟩
  obtain ⟨_, results, order⟩ := search_exact (c := c) rfl
  have searches : c.Searches _ (.ok ()) :=
    .goesOn rfl <| .goesOn rfl <| .goesOn rfl <| .goesOn rfl <| .goesOn rfl <| .goesOn rfl <|
      .goesOn rfl <| .ended rfl
  have reordered : (c.withBrokers brokers).Searches _ (.ok ()) :=
    .goesOn rfl <| .goesOn rfl <| .goesOn rfl <| .goesOn rfl <| .goesOn rfl <| .ended rfl
  have same : ∀ id, brokers.get? id = c.shared.brokers.get? id :=
    Table.get?_of_perm (by decide +kernel)
  have steady : ∀ broker state,
      (c.wire.transport.connect broker c.terms state).1.toBool = (broker.port == 3) := by
    intro broker state
    change (if broker.port == 3 then Except.ok () else Except.error _).toBool = _
    cases broker.port == 3 <;> rfl
  obtain ⟨again, dials, search⟩ := results _ _ searches
  have succeeds := order _ steady brokers same _ _ _ _ searches reordered
  exact ⟨c, _, _, again, dials, brokers, _, rfl, searches, search, rfl, rfl, rfl, same, reordered,
    rfl, succeeds.mp rfl⟩

end Order

end Client

end Courier
