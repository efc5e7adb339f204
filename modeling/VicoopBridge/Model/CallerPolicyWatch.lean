import Mathlib.Logic.Function.Basic
import VicoopBridge.Model.Json

/-! # Cached caller policy and pricing

The allowed callers and the price of an agent are columns of its row. Every server instance
keeps a copy with the connection of an agent that is registered there. Admin writes update the
copy of their own instance and notify all of them; an instance that is notified reads the row
again. What a query returned is stored in a later step. -/

namespace VicoopBridge

/-- The channel a change is announced on. -/
inductive WatchChannel where
  | callerPolicyChanged
  | x402PricingChanged
  deriving DecidableEq, Repr

structure PolicyRow where
  allowedCallers : List String
  x402Pricing : Option Json
  deriving DecidableEq

/-- What a connection keeps of its agent's row. -/
structure CachedPolicy (π : Type) where
  allowedCallers : List String
  x402Pricing : Option π
  deriving DecidableEq

/-- A column that has been read. -/
inductive PolicyCopy (π : Type) where
  | allowedCallers (callers : List String)
  | x402Pricing (pricing : Option π)
  deriving DecidableEq

def PolicyCopy.channel {π : Type} : PolicyCopy π → WatchChannel
  | .allowedCallers _ => .callerPolicyChanged
  | .x402Pricing _ => .x402PricingChanged

namespace CachedPolicy

variable {π : Type} (policy : CachedPolicy π)

def column : WatchChannel → PolicyCopy π
  | .callerPolicyChanged => .allowedCallers policy.allowedCallers
  | .x402PricingChanged => .x402Pricing policy.x402Pricing

def store : PolicyCopy π → CachedPolicy π
  | .allowedCallers callers => { policy with allowedCallers := callers }
  | .x402Pricing pricing => { policy with x402Pricing := pricing }

end CachedPolicy

/-- The copy of a row. `parseX402Pricing` reads the pricing column; a price it cannot read is
none. -/
def PolicyRow.policy {π : Type} (parseX402Pricing : Option Json → Option π) (row : PolicyRow) :
    CachedPolicy π where
  allowedCallers := row.allowedCallers
  x402Pricing := parseX402Pricing row.x402Pricing

/-- An admin call after its transaction: it updates the registry of its own instance, and then
notifies the others if it has changed the row. -/
structure PolicyWrite (π : Type) where
  server : ℕ
  agentId : String
  copy : PolicyCopy π
  notifies : Bool
  updated : Bool := false
  deriving DecidableEq

structure PolicyNotification where
  server : ℕ
  channel : WatchChannel
  agentId : String
  deriving DecidableEq

/-- A call of `refresh` that waits for its query. -/
structure PolicyRefresh (π : Type) where
  server : ℕ
  channel : WatchChannel
  agentId : String
  result : Option (PolicyCopy π) := none
  deriving DecidableEq

/-- An authentication that has read the row and has not registered the agent yet. -/
structure PolicyRegistration (π : Type) where
  server : ℕ
  agentId : String
  policy : CachedPolicy π
  deriving DecidableEq

/-- `agents` are the connections registered with each instance. -/
structure PolicyWatch (π : Type) where
  rows : String → PolicyRow
  agents : ℕ → String → Option (CachedPolicy π) := fun _ _ => none
  writes : List (PolicyWrite π) := []
  notifications : List PolicyNotification := []
  refreshes : List (PolicyRefresh π) := []
  registrations : List (PolicyRegistration π) := []

inductive PolicyAction (π : Type) where
  | addCaller (server : ℕ) (agentId principal : String)
  | removeCaller (server : ℕ) (agentId principal : String)
  /-- An add or remove that changed nothing reads the callers there are. -/
  | readCallers (server : ℕ) (agentId : String)
  | setX402Pricing (server : ℕ) (agentId : String) (stored : Json) (pricing : π)
  | clearX402Pricing (server : ℕ) (agentId : String)
  | updateRegistry (write : PolicyWrite π)
  | notify (write : PolicyWrite π)
  | deliver (notification : PolicyNotification)
  | query (refresh : PolicyRefresh π)
  | refreshed (refresh : PolicyRefresh π) (copy : PolicyCopy π)
  | readRow (server : ℕ) (agentId : String)
  | register (registration : PolicyRegistration π)
  | reject (registration : PolicyRegistration π)
  | unregister (server : ℕ) (agentId : String)

namespace PolicyWatch

variable {π : Type} [DecidableEq π] (servers : List ℕ)
  (parseX402Pricing : Option Json → Option π) (s : PolicyWatch π)

/-- The registry of one instance, if the agent is registered there. -/
def store (server : ℕ) (agentId : String) (copy : PolicyCopy π) : PolicyWatch π :=
  { s with
    agents := Function.update s.agents server
      (Function.update (s.agents server) agentId
        ((s.agents server agentId).map (CachedPolicy.store · copy))) }

/-- The transaction of an admin write. -/
def commit (server : ℕ) (agentId : String) (row : PolicyRow) (copy : PolicyCopy π) : PolicyWatch π :=
  { s with
    rows := Function.update s.rows agentId row
    writes := s.writes ++ [{ server := server, agentId := agentId, copy := copy, notifies := true }] }

def commitCallers (server : ℕ) (agentId : String) (callers : List String) : PolicyWatch π :=
  s.commit server agentId { s.rows agentId with allowedCallers := callers } (.allowedCallers callers)

def addCaller (server : ℕ) (agentId principal : String) : PolicyWatch π :=
  let callers := (s.rows agentId).allowedCallers
  if principal ∈ callers then s else s.commitCallers server agentId (callers ++ [principal])

def removeCaller (server : ℕ) (agentId principal : String) : PolicyWatch π :=
  let callers := (s.rows agentId).allowedCallers
  if principal ∈ callers then s.commitCallers server agentId (callers.filter (· ≠ principal))
  else s

def apply : PolicyAction π → PolicyWatch π
  | .addCaller server agentId principal => s.addCaller server agentId principal
  | .removeCaller server agentId principal => s.removeCaller server agentId principal
  | .readCallers server agentId =>
      { s with writes := s.writes ++ [{
          server := server, agentId := agentId, notifies := false
          copy := .allowedCallers (s.rows agentId).allowedCallers }] }
  | .setX402Pricing server agentId stored pricing =>
      s.commit server agentId { s.rows agentId with x402Pricing := some stored }
        (.x402Pricing (some pricing))
  | .clearX402Pricing server agentId =>
      s.commit server agentId { s.rows agentId with x402Pricing := none } (.x402Pricing none)
  | .updateRegistry write =>
      { s with
        writes := s.writes.erase write ++
          if write.notifies then [{ write with updated := true }] else [] }.store
        write.server write.agentId write.copy
  | .notify write =>
      { s with
        writes := s.writes.erase write
        notifications := s.notifications ++ servers.map fun server => {
          server := server, channel := write.copy.channel, agentId := write.agentId } }
  | .deliver notification =>
      { s with
        notifications := s.notifications.erase notification
        refreshes :=
          if (s.agents notification.server notification.agentId).isNone then s.refreshes
          else s.refreshes ++ [{
            server := notification.server, channel := notification.channel
            agentId := notification.agentId }] }
  | .query refresh =>
      { s with refreshes := s.refreshes.erase refresh ++ [{ refresh with
          result := some (((s.rows refresh.agentId).policy parseX402Pricing).column
            refresh.channel) }] }
  | .refreshed refresh copy =>
      { s with refreshes := s.refreshes.erase refresh }.store refresh.server refresh.agentId copy
  | .readRow server agentId =>
      { s with registrations := s.registrations ++ [{
          server := server, agentId := agentId
          policy := (s.rows agentId).policy parseX402Pricing }] }
  | .register registration =>
      { s with
        registrations := s.registrations.erase registration
        agents := Function.update s.agents registration.server
          (Function.update (s.agents registration.server) registration.agentId
            (some registration.policy)) }
  | .reject registration =>
      { s with registrations := s.registrations.erase registration }
  | .unregister server agentId =>
      { s with
        agents := Function.update s.agents server
          (Function.update (s.agents server) agentId none) }

/-- `servers` are the instances, and all of them listen. -/
def enabled : PolicyAction π → Prop
  | .updateRegistry write => write ∈ s.writes ∧ write.updated = false
  | .notify write => write ∈ s.writes ∧ write.notifies = true ∧ write.updated = true
  | .deliver notification => notification ∈ s.notifications
  | .query refresh => refresh ∈ s.refreshes ∧ refresh.result = none
  | .refreshed refresh copy => refresh ∈ s.refreshes ∧ refresh.result = some copy
  | .readRow server _ => server ∈ servers
  | .register registration | .reject registration => registration ∈ s.registrations
  | _ => True

instance decidableEnabled : ∀ a, Decidable (s.enabled servers a)
  | .updateRegistry write =>
      inferInstanceAs (Decidable (write ∈ s.writes ∧ write.updated = false))
  | .notify write => inferInstanceAs
      (Decidable (write ∈ s.writes ∧ write.notifies = true ∧ write.updated = true))
  | .deliver notification => inferInstanceAs (Decidable (notification ∈ s.notifications))
  | .query refresh =>
      inferInstanceAs (Decidable (refresh ∈ s.refreshes ∧ refresh.result = none))
  | .refreshed refresh copy =>
      inferInstanceAs (Decidable (refresh ∈ s.refreshes ∧ refresh.result = some copy))
  | .readRow server _ => inferInstanceAs (Decidable (server ∈ servers))
  | .register registration | .reject registration =>
      inferInstanceAs (Decidable (registration ∈ s.registrations))
  | .addCaller .. | .removeCaller .. | .readCallers .. | .setX402Pricing ..
  | .clearX402Pricing .. | .unregister .. => isTrue trivial

end PolicyWatch

end VicoopBridge
