import Marko.DatagramCalls

/-! One socket as its program sees it from inside: what its receives meet, in order, while
someone else decides the sends and the callbacks. -/
namespace Datagram

open Interaction (Handler)

variable {A K V σ : Type}

inductive Arrival (A : Type) where
  | datagram (payload : Bytes) (src : A)
  | timeout
  deriving DecidableEq, Repr

/-- The kernel answers a receive with what fits of the next arrival and drops the rest. `cb`
says what the callbacks return, and `send` decides the outcome of every send. -/
def arriving (cb : K → Bytes → V) (send : Bytes → A → σ → SendAnswer × σ) :
    Handler (sig A K V) (List (Arrival A) × σ)
  | .recvfrom _ _, ([], s) => (.failed .again, [], s)
  | .recvfrom _ _, (.timeout :: rest, s) => (.failed .again, rest, s)
  | .recvfrom size _, (.datagram payload src :: rest, s) =>
    (.received (payload.take size) src, rest, s)
  | .sendto msg dst _, (arrivals, s) => ((send msg dst s).1, arrivals, (send msg dst s).2)
  | .callback k msg, w => (cb k msg, w)
  | .bind _, w => ((-1 : ℤ), w)
  | .getpeername, w => (none, w)
  | .setsockopt .., w => ((-1 : ℤ), w)

/-- A kernel that accepts every datagram whole. -/
def acceptAll (msg : Bytes) (_dst : A) (s : σ) : SendAnswer × σ := (.sent msg.length, s)

end Datagram
