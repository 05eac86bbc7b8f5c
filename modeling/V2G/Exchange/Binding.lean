import V2G.Codec.Basic
import V2G.Exchange.Answer

/-!
# Bound responses

A program holds messages, each at a place of its own. Binding a response to a request makes a copy
of it at a new place, which refers to the place of the request. Nothing that is held already
changes, unless the hidden attribute of a response is assigned.
-/

namespace V2G.Exchange

variable [Url.Reader]

/-- A message, with the place of the request that it is bound to, if it is bound. -/
structure Held where
  message : Value
  request : Option Nat

/-- The messages that a program holds, by their places. -/
abbrev Store := List Held

namespace Store

/-- The message at a place. -/
def message (st : Store) (place : Nat) : Value := (st[place]?.map (·.message)).getD .none

/-- The place of the request that the message at a place is bound to. -/
def request? (st : Store) (place : Nat) : Option Nat := st[place]?.bind (·.request)

/-- One message more, at the place after the last one. -/
def hold (st : Store) (message : Value) (request : Option Nat) : Store := st ++ [⟨message, request⟩]

/-- A copy of a response, bound to a request. -/
def correlate (st : Store) (response request : Nat) : Except Failure Store :=
  (Exchange.correlate (st.message response) (st.message request)).map
    (st.hold · (some request))

/-- The response of a class that named arguments make, bound to a request. -/
def answering (st : Store) (e : Element) (request : Nat) (args : Keyed Value) :
    Except NoAnswer Store :=
  (Exchange.answering e (st.message request) args).map (st.hold · (some request))

/-- The response of a document, bound to the request it answers. -/
def receive (st : Store) (c : Codec) (s : Settings) (request : Nat) (document : Json)
    (limit : Option Nat := none) : Traced Store := do
  return st.hold (← c.parseResponse s (st.message request) document limit) (some request)

/-- A response whose hidden attribute is assigned is bound to another request, or to none. -/
def rebind (st : Store) (response : Nat) (request : Option Nat) : Store :=
  st.modify response fun held => { held with request }

end Store

end V2G.Exchange
