import BrokerLoad.CommandLine.Settings
import BrokerLoad.Proofs.Config.Broker
import BrokerLoad.Proofs.Contract

/-!
# Plans from command lines

A plan is made of values that may be missing. If there is one, its numbers are those that were given.
If there is none, the configuration was refused, or a value that was needed was given as an empty
one; nothing else goes wrong before a run.

## Main definitions

* `Unplanned`: why there is no plan.

## Main statements

* `exists_of_ofAttempts`: the numbers of a plan.
* `failsAs_plan`: why there is no plan.
-/

namespace BrokerLoad.CommandLine

/-! ## §1 Plans that were made -/

/-- The numbers of a plan are those that were given. -/
theorem exists_of_ofAttempts {τ ε : Type} [Seconds τ] {refuse : ConfigError → ε}
    {publishers subscribers payloadSize : Except ε Int} {duration interval : Except ε τ}
    {settings : Except ε ClientSettings} {plan : Plan τ}
    (h : Plan.ofAttempts refuse publishers subscribers payloadSize duration interval settings =
      .ok plan) :
    ∃ m n k, publishers = .ok m ∧ subscribers = .ok n ∧ payloadSize = .ok k ∧
      settings = .ok plan.settings ∧ plan.publishers = m.toNat ∧ plan.subscribers = n.toNat ∧
        plan.payloadSize = k.toNat := by
  obtain ⟨m, hm, h⟩ := exists_of_bind_ok h
  split at h
  · cases h
  obtain ⟨n, hn, h⟩ := exists_of_bind_ok h
  split at h
  · cases h
  obtain ⟨k, hk, h⟩ := exists_of_bind_ok h
  split at h
  · cases h
  obtain ⟨time, _, h⟩ := exists_of_bind_ok h
  split at h
  · obtain ⟨interval, _, h⟩ := exists_of_bind_ok h
    split at h
    · obtain ⟨client, hclient, h⟩ := exists_of_bind_ok h
      obtain rfl := Except.ok.inj h
      exact ⟨m, n, k, hm, hn, hk, hclient, rfl, rfl, rfl⟩
    · cases h
  · cases h

/-- Settings reach the broker that was given, and keep the connection alive as was said. -/
theorem settings_of_ofAttempts {ε : Type} {refuse : ConfigError → ε} {broker : BrokerAddress}
    {topic : String} {qos keepalive : Except ε Int} {username password : Option String}
    {settings : ClientSettings}
    (h : ClientSettings.ofAttempts refuse broker topic qos keepalive username password =
      .ok settings) : settings.broker = broker ∧ keepalive = .ok settings.keepalive := by
  unfold ClientSettings.ofAttempts at h
  split at h
  · obtain ⟨n, _, h⟩ := exists_of_bind_ok h
    split at h
    · obtain ⟨k, hk, h⟩ := exists_of_bind_ok h
      split at h
      · obtain rfl := Except.ok.inj h
        exact ⟨rfl, hk⟩
      · cases h
    · cases h
  · cases h

/-- A broker from a command line has a port that can be written. -/
theorem Parsed.isWritable_of_broker {p : Parsed} {default : String} {broker : BrokerAddress}
    (h : p.broker default = .ok broker) : isWritable broker.port = true := by
  obtain ⟨text, _, h⟩ := exists_of_bind_ok h
  cases hparse : BrokerAddress.parse text with
  | error e =>
    rw [hparse] at h
    cases h
  | ok b =>
    rw [hparse] at h
    obtain rfl := Except.ok.inj h
    obtain ⟨_, hlow, hhigh⟩ := BrokerAddress.parse_eq_ok hparse
    exact (BrokerAddress.port_digits hlow hhigh).2

/-! ## §2 Plans that were not made -/

variable {α : Type}

/-- Why there is no plan: the configuration is refused, or a value was given as an empty one. -/
def Unplanned (f : Fault) : Prop := (∃ e, f = .config e) ∨ ∃ use, f = .emptyValue use

theorem failsAs_needed (use : EmptyUse) (value : Option α) :
    FailsAs Unplanned (needed use value) := by
  cases value with
  | some a => exact .ok a
  | none => exact .error (.inr ⟨use, rfl⟩)

theorem failsAs_refused (e : ConfigError) : FailsAs Unplanned (.error (.config e) : Except Fault α) :=
  .error (.inl ⟨e, rfl⟩)

theorem Parsed.failsAs_broker (p : Parsed) (default : String) :
    FailsAs Unplanned (p.broker default) := by
  refine (failsAs_needed _ _).bind fun text => ?_
  cases BrokerAddress.parse text with
  | ok b => exact .ok b
  | error e => exact failsAs_refused e

theorem Parsed.failsAs_qos (p : Parsed) (default : Int) : FailsAs Unplanned (p.qos default) := by
  unfold Parsed.qos
  cases p.integer "qos" default with
  | some qos => exact .ok qos
  | none => exact failsAs_refused _

theorem failsAs_settings (broker : BrokerAddress) (topic : String) {qos keepalive : Except Fault Int}
    (hqos : FailsAs Unplanned qos) (hkeepalive : FailsAs Unplanned keepalive)
    (username password : Option String) :
    FailsAs Unplanned
      (ClientSettings.ofAttempts .config broker topic qos keepalive username password) := by
  unfold ClientSettings.ofAttempts
  split
  · refine hqos.bind fun qos => ?_
    split
    · refine hkeepalive.bind fun keepalive => ?_
      split
      · exact .ok _
      · exact failsAs_refused _
    · exact failsAs_refused _
  · exact failsAs_refused _

theorem failsAs_plan {publishers subscribers payloadSize : Except Fault Int}
    {duration interval : Except Fault Double} {settings : Except Fault ClientSettings}
    (hpublishers : FailsAs Unplanned publishers) (hsubscribers : FailsAs Unplanned subscribers)
    (hpayload : FailsAs Unplanned payloadSize) (hduration : FailsAs Unplanned duration)
    (hinterval : FailsAs Unplanned interval) (hsettings : FailsAs Unplanned settings) :
    FailsAs Unplanned (Plan.ofAttempts .config publishers subscribers payloadSize duration interval
      settings) := by
  unfold Plan.ofAttempts
  refine hpublishers.bind fun publishers => ?_
  split
  · exact failsAs_refused _
  refine hsubscribers.bind fun subscribers => ?_
  split
  · exact failsAs_refused _
  refine hpayload.bind fun payloadSize => ?_
  split
  · exact failsAs_refused _
  refine hduration.bind fun duration => ?_
  split
  · refine hinterval.bind fun interval => ?_
    split
    · exact hsettings.bind fun _ => .ok _
    · exact failsAs_refused _
  · exact failsAs_refused _

end BrokerLoad.CommandLine
