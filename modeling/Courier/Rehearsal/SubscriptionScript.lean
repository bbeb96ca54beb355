import Courier.Subscriptions

/-! Scripts of changes to a record of subscriptions, which remember for every
filter what the latest change to it replaced. -/
namespace Courier.Rehearsal

inductive SubscriptionCommand where
  | insert (filter : String) (qos : QoS)
  | remove (filter : String)
  | restore (filter : String)
  | mark (filter : String)
  | get (filter : String)
  | plan

inductive SubscriptionAnswer where
  | held (subscription : Option Subscription)
  | plan (renewals : List Renewal)
  | done

structure SubscriptionDesk where
  record : Subscriptions := ∅
  replaced : Table String (Option Subscription) := ∅

namespace SubscriptionDesk

def filterOf : Renewal → String
  | .subscribe filter _ => filter
  | .unsubscribe filter => filter

/-- In the order of the filters' UTF-8 bytes. -/
def sorted (renewals : List Renewal) : List Renewal :=
  renewals.mergeSort fun a b => decide (filterOf a ≤ filterOf b)

def replace (d : SubscriptionDesk) (filter : String) (record : Subscriptions) :
    SubscriptionAnswer × SubscriptionDesk :=
  let before := d.record.get? filter
  (.held before, { record, replaced := d.replaced.insert filter before })

def perform (d : SubscriptionDesk) : SubscriptionCommand → SubscriptionAnswer × SubscriptionDesk
  | .insert filter qos => d.replace filter (d.record.insert filter (.active qos))
  | .remove filter => d.replace filter (d.record.erase filter)
  | .restore filter =>
    (.done, { d with record := d.record.restore filter (d.replaced.get? filter).join })
  | .mark filter => (.done, { d with record := d.record.giveUp filter })
  | .get filter => (.held (d.record.get? filter), d)
  | .plan => (.plan (sorted d.record.renewals), { d with record := d.record.renewed })

/-- Each answer with the number of records after it. -/
def run : List SubscriptionCommand → SubscriptionDesk → List (SubscriptionAnswer × Nat)
  | [], _ => []
  | command :: rest, d =>
    let (answer, d) := d.perform command
    (answer, d.record.size) :: run rest d

end SubscriptionDesk

end Courier.Rehearsal
