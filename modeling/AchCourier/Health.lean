import AchCourier.Remote.Error
import AchCourier.Table

/-!
# Health of agents

For every protocol and host two signals are kept: whether the last operation succeeded, and how
many dial attempts were needed beyond the first of each dial.

## Main definitions

* `Health` — the signals of all hosts.
* `Health.record`, `Health.retry` — the outcome of an operation, and one more attempt.
* `Health.isUp?`, `Health.retries` — the signals of one host.

## Main results

* `Health.signals?_update` — what is known behind a change of the signals of one host.
* `Health.isUp?_record`, `Health.retries_record`, `Health.retries_retry` — what the signals are
  behind a change.
-/

namespace AchCourier

/-- What is known about one host. -/
structure HostSignals where
  /-- The last operation succeeded. -/
  up : Bool := false
  /-- The dial attempts beyond the first of each dial. -/
  retries : Nat := 0
  deriving DecidableEq, Repr

/-- The signals of all hosts that were ever seen, by protocol and host name. -/
structure Health where
  hosts : Table (Remote.Protocol × String) HostSignals := {}
  deriving DecidableEq, Repr

namespace Health

/-- The signals of a host, if it was ever seen. -/
def signals? (h : Health) (protocol : Remote.Protocol) (hostname : String) :
    Option HostSignals :=
  h.hosts.get? (protocol, hostname)

/-- The health in which the signals of one host have changed. -/
def update (h : Health) (protocol : Remote.Protocol) (hostname : String)
    (f : HostSignals → HostSignals) : Health :=
  ⟨h.hosts.put (protocol, hostname) (f ((h.signals? protocol hostname).getD {}))⟩

/-- An operation on a host succeeded or failed. -/
def record (h : Health) (protocol : Remote.Protocol) (hostname : String) (ok : Bool) : Health :=
  h.update protocol hostname fun s => { s with up := ok }

/-- A host is dialed once more. -/
def retry (h : Health) (protocol : Remote.Protocol) (hostname : String) : Health :=
  h.update protocol hostname fun s => { s with retries := s.retries + 1 }

/-- Whether the last operation on a host succeeded; none if there was none. -/
def isUp? (h : Health) (protocol : Remote.Protocol) (hostname : String) : Option Bool :=
  (h.signals? protocol hostname).map (·.up)

/-- The dial attempts on a host beyond the first of each dial. -/
def retries (h : Health) (protocol : Remote.Protocol) (hostname : String) : Nat :=
  ((h.signals? protocol hostname).map (·.retries)).getD 0

variable (h : Health) (protocol protocol' : Remote.Protocol) (hostname hostname' : String)

/-- Behind a change of the signals of one host all others are known as before. -/
theorem signals?_update (f : HostSignals → HostSignals) :
    (h.update protocol hostname f).signals? protocol' hostname' =
      if (protocol', hostname') = (protocol, hostname) then
        some (f ((h.signals? protocol hostname).getD {}))
      else h.signals? protocol' hostname' :=
  Table.get?_put ..

/-- The outcome of an operation is noted for its host and for no other. -/
theorem isUp?_record (ok : Bool) :
    (h.record protocol hostname ok).isUp? protocol' hostname' =
      if (protocol', hostname') = (protocol, hostname) then some ok
      else h.isUp? protocol' hostname' := by
  rw [isUp?, record, signals?_update]
  split <;> rfl

theorem isUp?_retry_of_ne (hne : (protocol', hostname') ≠ (protocol, hostname)) :
    (h.retry protocol hostname).isUp? protocol' hostname' = h.isUp? protocol' hostname' := by
  rw [isUp?, retry, signals?_update, if_neg hne, isUp?]

/-- Noting the outcome of an operation leaves the number of retries alone. -/
@[simp] theorem retries_record (ok : Bool) :
    (h.record protocol hostname ok).retries protocol' hostname' =
      h.retries protocol' hostname' := by
  rw [retries, record, signals?_update]
  split
  · next heq =>
    obtain ⟨rfl, rfl⟩ := Prod.mk.inj heq
    rw [retries]
    cases h.signals? protocol' hostname' <;> rfl
  · rfl

theorem retries_retry :
    (h.retry protocol hostname).retries protocol' hostname' =
      h.retries protocol' hostname' +
        if (protocol', hostname') = (protocol, hostname) then 1 else 0 := by
  rw [retries, retry, signals?_update]
  split
  · next heq =>
    obtain ⟨rfl, rfl⟩ := Prod.mk.inj heq
    rw [retries]
    cases h.signals? protocol' hostname' <;> rfl
  · rfl

end Health

end AchCourier
