import Courier.Proofs.Outbox.Exchange
import Courier.Proofs.Outbox.Removal

/-! The order in which waiting messages are sent: the higher class first, and within a
class by sequence number. A queue that is in order is determined by the messages in it,
so it is one queue after the other, one for each class, and the stable sort of whatever
came in. -/
namespace Courier

namespace Message

/-- This message is sent before the other if both wait. -/
def Precedes (m n : Message) : Prop :=
  n.priority.rank < m.priority.rank ∨ m.priority = n.priority ∧ m.seq < n.seq

variable {m n : Message}

theorem Precedes.of_class (above : n.priority ≤ m.priority)
    (earlier : m.priority = n.priority → m.seq < n.seq) : m.Precedes n := by
  by_cases same : m.priority = n.priority
  · exact .inr ⟨same, earlier same⟩
  · left
    apply Nat.lt_of_le_of_ne above
    intro equal
    exact same (Priority.rank_injective equal.symm)

theorem Precedes.asymm (first : m.Precedes n) : ¬n.Precedes m := by
  rintro (lower | ⟨same, later⟩) <;> rcases first with higher | ⟨equal, earlier⟩
  · omega
  · rw [equal] at lower
    omega
  · rw [same] at higher
    omega
  · omega

/-- Two queues in order that hold the same messages are the same. -/
theorem eq_of_precedes {first second : List Message} (ordered : first.Pairwise Precedes)
    (sorted : second.Pairwise Precedes) (same : first.Perm second) : first = second :=
  same.eq_of_pairwise (fun _ _ _ _ before after => absurd after before.asymm) ordered sorted

def sortByClass (ms : List Message) : List Message :=
  ms.mergeSort fun m n => decide (n.priority ≤ m.priority)

theorem sortByClass_precedes {ms : List Message}
    (numbered : ms.Pairwise fun m n => m.priority = n.priority → m.seq < n.seq) :
    (sortByClass ms).Pairwise Precedes := by
  have trans : ∀ a b c : Message, decide (b.priority ≤ a.priority) →
      decide (c.priority ≤ b.priority) → decide (c.priority ≤ a.priority) := by
    intro a b c first second
    exact decide_eq_true (Nat.le_trans (of_decide_eq_true second) (of_decide_eq_true first))
  have total : ∀ a b : Message,
      decide (b.priority ≤ a.priority) || decide (a.priority ≤ b.priority) := by
    intro a b
    rw [Bool.or_eq_true, decide_eq_true_eq, decide_eq_true_eq]
    exact Nat.le_total _ _
  induction ms with
  | nil =>
    rw [sortByClass, List.mergeSort_nil]
    exact .nil
  | cons m rest ih =>
    obtain ⟨later, numbered⟩ := List.pairwise_cons.mp numbered
    have graded := List.pairwise_mergeSort trans total (m :: rest)
    obtain ⟨above, below, whole, split, higher⟩ := List.mergeSort_cons trans total m rest
    have ordered := ih numbered
    rw [sortByClass, split] at ordered
    rw [whole] at graded
    rw [sortByClass, whole]
    obtain ⟨first, second, apart⟩ := List.pairwise_append.mp ordered
    have lower := (List.pairwise_cons.mp (List.pairwise_append.mp graded).2.1).1
    refine List.pairwise_append.mpr ⟨first, List.pairwise_cons.mpr ⟨?_, second⟩, ?_⟩
    · intro n member
      have among : n ∈ rest := by
        rw [← List.mem_mergeSort, split]
        exact List.mem_append_right _ member
      exact .of_class (of_decide_eq_true (lower n member)) (later n among)
    · intro n member k behind
      rcases List.mem_cons.mp behind with rfl | behind
      · have outranks := higher n member
        rw [Bool.not_eq_true', decide_eq_false_iff_not] at outranks
        exact .inl (Nat.lt_of_not_le outranks)
      · exact apart n member k behind

end Message

namespace Outbox

variable {o : Outbox} {m : Message}

def Ordered (o : Outbox) : Prop := o.queue.Pairwise Message.Precedes

def lane (o : Outbox) (priority : Priority) : List Message :=
  o.queue.filter fun m => decide (m.priority = priority)

theorem Ordered.enqueue (ordered : o.Ordered) (newest : ∀ n ∈ o.queue, n.seq < m.seq) :
    (o.enqueue m).Ordered := by
  unfold Ordered Outbox.enqueue at *
  dsimp only
  generalize o.queue = queue at ordered newest
  induction queue with
  | nil => exact List.pairwise_singleton _ m
  | cons n rest ih =>
    obtain ⟨first, ordered⟩ := List.pairwise_cons.mp ordered
    have younger := List.forall_mem_cons.mp newest
    unfold insertBehind
    split
    · rename_i behind
      refine List.pairwise_cons.mpr ⟨?_, ih ordered younger.2⟩
      have above : m.priority ≤ n.priority := by
        rcases (Bool.or_eq_true _ _).mp behind with own | further
        · exact of_decide_eq_true own
        · obtain ⟨k, member, passes⟩ := List.any_eq_true.mp further
          have rank : m.priority.rank ≤ k.priority.rank := of_decide_eq_true passes
          rcases first k member with lower | ⟨same, _⟩
          · exact Nat.le_trans rank lower.le
          · exact same ▸ rank
      intro k member
      rcases mem_insertBehind.mp member with rfl | member
      · exact .of_class above fun _ => younger.1
      · exact first k member
    · rename_i front
      refine List.pairwise_cons.mpr ⟨?_, List.pairwise_cons.mpr ⟨first, ordered⟩⟩
      intro k member
      left
      by_contra reaches
      refine front ((Bool.or_eq_true _ _).mpr ?_)
      have passes : m.priority ≤ k.priority := Nat.le_of_not_lt reaches
      rcases List.mem_cons.mp member with rfl | member
      · exact .inl (decide_eq_true passes)
      · exact .inr (List.any_eq_true.mpr ⟨k, member, decide_eq_true passes⟩)

/-- The queue is one queue after the other, one for each class. -/
theorem Ordered.lanes (ordered : o.Ordered) :
    o.queue = o.lane .high ++ o.lane .medium ++ o.lane .low := by
  have within : ∀ priority, (o.lane priority).Pairwise Message.Precedes :=
    fun priority => List.Pairwise.filter _ ordered
  have class_of : ∀ {priority} {n : Message}, n ∈ o.lane priority → n.priority = priority :=
    fun member => of_decide_eq_true (List.mem_filter.mp member).2
  refine Message.eq_of_precedes ordered ?_ ?_
  · refine List.pairwise_append.mpr
      ⟨List.pairwise_append.mpr ⟨within _, within _, ?_⟩, within _, ?_⟩
    · intro n first k second
      left
      rw [class_of first, class_of second]
      decide
    · intro n first k second
      left
      rw [class_of second]
      rcases List.mem_append.mp first with high | medium
      · rw [class_of high]
        decide
      · rw [class_of medium]
        decide
  · rw [← Multiset.coe_eq_coe, ← Multiset.coe_add, ← Multiset.coe_add]
    simp only [lane]
    generalize o.queue = queue
    induction queue with
    | nil => rfl
    | cons n rest ih =>
      rw [← Multiset.cons_coe, ih]
      cases rank : n.priority <;> simp [rank, ← Multiset.cons_coe]

theorem finishEach_queue (o : Outbox) (ms : List Message) (outcome : Outcome) :
    (o.finishEach ms outcome).queue = o.queue := by
  induction ms generalizing o with
  | nil => rfl
  | cons m ms ih => exact (ih (o.finish m outcome)).trans (o.finish_queue m outcome)

theorem purge_queue (o : Outbox) : o.purge.queue.Sublist o.queue := by
  unfold purge
  rw [finishEach_queue]
  exact List.filter_sublist

theorem clear_queue (o : Outbox) : o.clear.queue = [] := by
  unfold clear
  rw [releaseEach_queue]

theorem withdraw_queue (o : Outbox) (m : Message) :
    (o.withdraw m).queue.Sublist o.queue := by
  unfold withdraw
  split
  · exact .refl _
  · split
    · exact .refl _
    · split
      · rename_i queued rest found
        obtain ⟨_, _, rfl⟩ := removeFirst_of_some found
        exact List.erase_sublist
      · exact .refl _

theorem seek_queue (o : Outbox) (m : Message) (late : Bool) :
    (o.seek m late).2.queue.Sublist o.queue := by
  unfold seek
  split
  · rename_i ended p found
    obtain ⟨n, _, same⟩ := Option.map_eq_some_iff.mp found
    cases same
    exact .refl _
  · split
    · exact o.withdraw_queue m
    · exact .refl _

/-- Nothing is taken off the queue before it is too late. -/
theorem seek_queue_of_early (o : Outbox) (m : Message) : (o.seek m false).2.queue = o.queue := by
  unfold seek
  split
  · rename_i ended p found
    obtain ⟨n, _, same⟩ := Option.map_eq_some_iff.mp found
    cases same
    rfl
  · rfl

section Accepting

variable {σ : Type} {w v : Wire σ} {q : Outbox} {seq : Nat} {p : Publication}
  {priority : Priority} {sync : Bool}

theorem Accepts.queue_of_error {fault : ClientFault}
    (accepts : o.Accepts w seq p priority sync (.error fault) q v) : q.queue = o.queue := by
  cases accepts <;> rfl

/-- A message that is not sent at once is handed over to the queue. -/
theorem Accepts.queue_of_ok (accepts : o.Accepts w seq p priority sync (.ok m) q v) :
    o.Ready ∧ q.queue = o.queue ∨ ¬o.Ready ∧ q.queue = (o.enqueue m).queue := by
  cases accepts with
  | sent took ready => exact .inl ⟨ready, launch_queue _ _ _⟩
  | parked took unready => exact .inr ⟨unready, rfl⟩

end Accepting

end Outbox

end Courier
