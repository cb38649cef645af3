import Mathlib.Logic.Function.Basic
import Marko.PymarkoLoops
import Marko.PymarkoPublisher

/-! Several `Subscriber`, `Reply` and `Publisher` objects in one process. The lists `cb` and
`clientaddr` are created once, in the bodies of the classes, and every attribute read of an
object without an attribute of its own finds the list of its class. -/
namespace Pymarko

open Datagram Interaction

variable {K : Type}

inductive ClassName where
  | subscriber
  | reply
  | publisher
  deriving DecidableEq, Repr

abbrev Ref := ℕ

/-- The class attributes, `cb = []` and `clientaddr = []`. -/
def ClassName.cb : ClassName → Option Ref
  | .subscriber => some 0
  | .reply => some 1
  | .publisher => none

def ClassName.clientaddr : ClassName → Option Ref
  | .publisher => some 0
  | _ => none

structure Instance where
  cls : ClassName
  cb : Option Ref
  clientaddr : Option Ref
  alive : Bool
  deriving DecidableEq, Repr

namespace Instance

/-- No `__init__` assigns `cb` or `clientaddr`. -/
def init (cls : ClassName) : Instance := ⟨cls, none, none, true⟩

/-- Reading `self.cb`: the object's own attribute, else that of its class. -/
def getCb (self : Instance) : Option Ref := self.cb <|> self.cls.cb

def getClientaddr (self : Instance) : Option Ref := self.clientaddr <|> self.cls.clientaddr

end Instance

structure Added (X : Type) where
  object : ℕ
  cls : ClassName
  entry : X
  deriving DecidableEq, Repr

/-- Objects are named in the order of their construction. What was registered through which
object is recorded beside the lists, for the observer. -/
structure World (K : Type) where
  objects : List Instance
  cbLists : Ref → List K
  addrLists : Ref → List Address
  registered : List (Added K)
  appended : List (Added Address)

inductive Op (K : Type) where
  | construct (cls : ClassName)
  | drop (o : ℕ)
  | registerCb (o : ℕ) (callback : K)
  | appendAddr (o : ℕ) (addr : Address)
  | loop (o : ℕ) (datasize : ℕ) (arrival : Arrival Address)
  | publish (o : ℕ) (data : Bytes)
  deriving DecidableEq, Repr

structure Effect (K : Type) where
  result : Except PyError Unit
  calls : List (Call Address K)

def Effect.none : Effect K := ⟨.ok (), []⟩

namespace World

def start : World K := ⟨[], fun _ => [], fun _ => [], [], []⟩

def live (w : World K) (o : ℕ) : Option Instance := w.objects[o]?.filter Instance.alive

/-- Every object has a socket of its own, made by `Base.__init__`. -/
def socket : UDPSocket := UDPSocket.init maxPacketSize

/-- A round of the loop of an object's class, over the list that `self.cb` names. -/
def loopOnce (cls : ClassName) (cb : List K) (datasize : ℕ) : Py K (Option Bytes) Unit :=
  match cls with
  | .reply => Reply.loopOnce socket cb datasize
  | _ => Subscriber.loopOnce cb datasize

def effect (reply : K → Bytes → Option Bytes) (arrivals : List (Arrival Address))
    (p : Py K (Option Bytes) Unit) : Effect K :=
  ⟨(p.run.exec (roundKernel reply) (arrivals, ())).1,
    p.run.trace (roundKernel reply) (arrivals, ())⟩

/-- `none` when the object is not there or its class has no such method or attribute. -/
def step (reply : K → Bytes → Option Bytes) (w : World K) : Op K → Option (Effect K × World K)
  | .construct cls => some (.none, { w with objects := w.objects ++ [Instance.init cls] })
  -- `__del__` sends nothing: no method sets `subscribedto`
  | .drop o => do
    let self ← w.live o
    some (.none, { w with objects := w.objects.set o { self with alive := false } })
  -- `self.cb.append` changes the list that the attribute names, in place
  | .registerCb o callback => do
    let self ← w.live o
    let ref ← self.getCb
    some (.none, { w with
      cbLists := Function.update w.cbLists ref (w.cbLists ref ++ [callback])
      registered := w.registered ++ [⟨o, self.cls, callback⟩] })
  | .appendAddr o addr => do
    let self ← w.live o
    let ref ← self.getClientaddr
    some (.none, { w with
      addrLists := Function.update w.addrLists ref (w.addrLists ref ++ [addr])
      appended := w.appended ++ [⟨o, self.cls, addr⟩] })
  | .loop o datasize arrival => do
    let self ← w.live o
    let ref ← self.getCb
    some (effect reply [arrival] (loopOnce self.cls (w.cbLists ref) datasize), w)
  | .publish o data => do
    let self ← w.live o
    let ref ← self.getClientaddr
    some (effect reply [] (Publisher.publish socket (w.addrLists ref) data), w)

/-! What each operation does when it can be performed. -/

section Inversion

variable {reply : K → Bytes → Option Bytes} {w w' : World K} {eff : Effect K} {o : ℕ}

theorem step_construct {cls : ClassName}
    (h : w.step reply (.construct cls) = some (eff, w')) :
    w' = { w with objects := w.objects ++ [Instance.init cls] } :=
  (Prod.mk.inj (Option.some.inj h)).2.symm

theorem step_drop (h : w.step reply (.drop o) = some (eff, w')) :
    ∃ self, w.live o = some self ∧
      w' = { w with objects := w.objects.set o { self with alive := false } } := by
  obtain ⟨self, hlive, heq⟩ := Option.bind_eq_some_iff.mp h
  exact ⟨self, hlive, (Prod.mk.inj (Option.some.inj heq)).2.symm⟩

theorem step_registerCb {callback : K}
    (h : w.step reply (.registerCb o callback) = some (eff, w')) :
    ∃ self ref, w.live o = some self ∧ self.getCb = some ref ∧
      w' = { w with
        cbLists := Function.update w.cbLists ref (w.cbLists ref ++ [callback])
        registered := w.registered ++ [⟨o, self.cls, callback⟩] } := by
  obtain ⟨self, hlive, heq⟩ := Option.bind_eq_some_iff.mp h
  obtain ⟨ref, href, heq⟩ := Option.bind_eq_some_iff.mp heq
  exact ⟨self, ref, hlive, href, (Prod.mk.inj (Option.some.inj heq)).2.symm⟩

theorem step_appendAddr {addr : Address}
    (h : w.step reply (.appendAddr o addr) = some (eff, w')) :
    ∃ self ref, w.live o = some self ∧ self.getClientaddr = some ref ∧
      w' = { w with
        addrLists := Function.update w.addrLists ref (w.addrLists ref ++ [addr])
        appended := w.appended ++ [⟨o, self.cls, addr⟩] } := by
  obtain ⟨self, hlive, heq⟩ := Option.bind_eq_some_iff.mp h
  obtain ⟨ref, href, heq⟩ := Option.bind_eq_some_iff.mp heq
  exact ⟨self, ref, hlive, href, (Prod.mk.inj (Option.some.inj heq)).2.symm⟩

theorem step_loop {datasize : ℕ} {arrival : Arrival Address}
    (h : w.step reply (.loop o datasize arrival) = some (eff, w')) :
    w = w' ∧ ∃ self ref, w.live o = some self ∧ self.getCb = some ref ∧
      eff = effect reply [arrival] (loopOnce self.cls (w.cbLists ref) datasize) := by
  obtain ⟨self, hlive, heq⟩ := Option.bind_eq_some_iff.mp h
  obtain ⟨ref, href, heq⟩ := Option.bind_eq_some_iff.mp heq
  obtain ⟨heff, hw⟩ := Prod.mk.inj (Option.some.inj heq)
  exact ⟨hw, self, ref, hlive, href, heff.symm⟩

theorem step_publish {data : Bytes} (h : w.step reply (.publish o data) = some (eff, w')) :
    w = w' ∧ ∃ self ref, w.live o = some self ∧ self.getClientaddr = some ref ∧
      eff = effect reply [] (Publisher.publish socket (w.addrLists ref) data) := by
  obtain ⟨self, hlive, heq⟩ := Option.bind_eq_some_iff.mp h
  obtain ⟨ref, href, heq⟩ := Option.bind_eq_some_iff.mp heq
  obtain ⟨heff, hw⟩ := Prod.mk.inj (Option.some.inj heq)
  exact ⟨hw, self, ref, hlive, href, heff.symm⟩

end Inversion

end World

structure Record (K : Type) where
  before : World K
  op : Op K
  effect : Effect K
  after : World K

/-- The operations that can be performed, one after another. -/
def history (reply : K → Bytes → Option Bytes) : World K → List (Op K) → List (Record K)
  | _, [] => []
  | w, op :: ops =>
    match w.step reply op with
    | some (eff, w') => ⟨w, op, eff, w'⟩ :: history reply w' ops
    | none => history reply w ops

namespace World

/-- What an object calls, and where it sends: the lists its attributes name. -/
def callbacksOf (w : World K) (o : ℕ) : Option (List K) := do
  let self ← w.live o
  let ref ← self.getCb
  some (w.cbLists ref)

def addressesOf (w : World K) (o : ℕ) : Option (List Address) := do
  let self ← w.live o
  let ref ← self.getClientaddr
  some (w.addrLists ref)

end World

def own {X : Type} (o : ℕ) (added : List (Added X)) : List X :=
  (added.filter fun x => x.object = o).map Added.entry

def Op.target : Op K → Option ℕ
  | .construct _ => none
  | .drop o => some o
  | .registerCb o _ => some o
  | .appendAddr o _ => some o
  | .loop o _ _ => some o
  | .publish o _ => some o

namespace Record

/-- A round that finds data runs through the callbacks registered on that object and no
others; a publish reaches the addresses added to that object and no others. -/
def OwnOnly (r : Record K) : Prop :=
  match r.op with
  | .loop o datasize arrival => r.effect.result = .ok () ∧ callbacks r.effect.calls =
      match heard datasize arrival with
      | some (data, _) => (own o r.before.registered).map fun callback => (callback, data)
      | none => []
  | .publish o data => r.effect.result = .ok () ∧
      sends r.effect.calls = (own o r.before.appended).map fun addr => (data, addr)
  | _ => True

/-- No other object calls or sends anything else than before. -/
def Frame (r : Record K) : Prop :=
  ∀ o, r.op.target ≠ some o → (r.before.live o).isSome →
    r.after.callbacksOf o = r.before.callbacksOf o ∧
      r.after.addressesOf o = r.before.addressesOf o

def Separate (r : Record K) : Prop := r.OwnOnly ∧ r.Frame

def HasSibling (w : World K) (o : ℕ) : Prop :=
  ∃ o' self other, o' ≠ o ∧ w.live o = some self ∧ w.live o' = some other ∧
    other.cls = self.cls

/-- The object is alone with its class list: nothing is added to it while a sibling is there,
and it is used only by the object through which all its entries were added. What is sent
fits into one packet. -/
def Exclusive (reply : K → Bytes → Option Bytes) (r : Record K) : Prop :=
  match r.op with
  | .registerCb o _ => ¬ HasSibling r.before o
  | .appendAddr o _ => ¬ HasSibling r.before o
  | .loop o datasize arrival =>
    ∀ self data addr, r.before.live o = some self → heard datasize arrival = some (data, addr) →
      ∀ x ∈ r.before.registered, x.cls = self.cls → x.object = o ∧
        (self.cls = .reply → ReplyFits reply maxPacketSize data x.entry)
  | .publish o data =>
    ∀ self, r.before.live o = some self → ∀ x ∈ r.before.appended, x.cls = self.cls →
      x.object = o ∧ data.length ≤ maxPacketSize
  | _ => True

end Record

end Pymarko
