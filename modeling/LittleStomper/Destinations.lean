/-
# Destinations, subscribers and senders

The vocabulary of `src/destinations.rs` and `src/error/mod.rs`: identifiers, messages,
errors, and the calls through which a destination talks back to a subscriber or sender.

A method of `Subscriber` or `Sender` is arbitrary code behind a trait object.  What
matters for the caller is with which arguments it is called (`Invocation`) and how the
call ends (`Reply`).
-/
import Mathlib.Data.List.Basic

/-- `string_id_class!(SubscriptionId)`. -/
structure SubscriptionId where
  str : String
  deriving DecidableEq, Repr

/-- `string_id_class!(DestinationId)`. -/
structure DestinationId where
  str : String
  deriving DecidableEq, Repr

/-- `string_id_class!(MessageId)`. -/
structure MessageId where
  str : String
  deriving DecidableEq, Repr

/-- `Vec<u8>`. -/
abbrev Bytes := List UInt8

/-- `StomperError`. -/
structure StomperError where
  message : String
  deriving DecidableEq, Repr

/-- `Result<T, StomperError>`. -/
abbrev StomperResult (α : Type) := Except StomperError α

/-- `InboundMessage`. -/
structure InboundMessage where
  senderMessageId : Option MessageId
  body : Bytes
  deriving DecidableEq, Repr

/-- `OutboundMessage`. -/
structure OutboundMessage where
  destination : DestinationId
  messageId : MessageId
  body : Bytes
  deriving DecidableEq, Repr

/-- A call of a method of the traits `Subscriber` and `Sender` on the object `k`. -/
inductive Invocation (κ : Type) where
  | subscribeCallback (k : κ) (destination : DestinationId)
      (subscriberSubId : Option SubscriptionId) (result : StomperResult SubscriptionId)
  | unsubscribeCallback (k : κ) (subscriberSubId : Option SubscriptionId)
      (result : StomperResult SubscriptionId)
  | send (k : κ) (subscription : SubscriptionId) (subscriberSubId : Option SubscriptionId)
      (message : OutboundMessage)
  | sendCallback (k : κ) (senderMessageId : Option MessageId)
      (result : StomperResult MessageId)
  deriving DecidableEq

/-- How such a call ends.  Only `Subscriber::send` returns a `Result`; the callbacks
return or panic. -/
inductive Reply where
  | ok
  | err
  | panic
  deriving DecidableEq, Repr

namespace Invocation

variable {κ : Type}

/-- The object called. -/
def target : Invocation κ → κ
  | subscribeCallback k _ _ _ => k
  | unsubscribeCallback k _ _ => k
  | send k _ _ _ => k
  | sendCallback k _ _ => k

/-- The call hands an error to a callback. -/
def isErr : Invocation κ → Bool
  | subscribeCallback _ _ _ r => !r.isOk
  | unsubscribeCallback _ _ r => !r.isOk
  | send _ _ _ _ => false
  | sendCallback _ _ r => !r.isOk

/-- The call passes on a client subscription id that is missing. -/
def lacksSubId : Invocation κ → Bool
  | subscribeCallback _ _ sub _ => sub.isNone
  | unsubscribeCallback _ sub _ => sub.isNone
  | send _ _ sub _ => sub.isNone
  | sendCallback _ _ _ => false

end Invocation
