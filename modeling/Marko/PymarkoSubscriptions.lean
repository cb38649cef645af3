import Marko.AppendErase
import Marko.PymarkoPublisher

/-! Who is subscribed after any sequence of datagrams to a `PublisherThread`. -/
namespace Pymarko

open Datagram Interaction AppendErase

variable {K V σ : Type}

/-- What a datagram asks of the list of subscribers, from its text and its source. -/
def change : Arrival Address → Change Address
  | .datagram payload src =>
    if text payload = some "subscribe" then .add src
    else if text payload = some "shutdown" then .remove src
    else .keep
  | .timeout => .keep

theorem text_take_iff {payload : Bytes} {s : String} (hs : (encode s).length < 100) :
    text (payload.take 100) = some s ↔ text payload = some s := by
  rw [text_eq_some_iff, text_eq_some_iff]
  constructor
  · intro h
    have hlen := congrArg List.length h
    rw [List.length_take] at hlen
    rw [← h, List.take_of_length_le (by omega)]
  · rintro rfl
    exact List.take_of_length_le (by omega)

theorem text_nil_ne {s : String} (hs : encode s ≠ []) : text [] ≠ some s := by
  intro h
  exact hs (text_eq_some_iff.mp h).symm

/-- Cut to 100 bytes or not, a datagram asks for the same. -/
theorem heard_eq (clientaddr : List Address) (payload : Bytes) (src : Address) :
    PublisherThread.heard clientaddr (payload.take 100) src =
      apply clientaddr (change (.datagram payload src)) := by
  have hsub : text (payload.take 100) = some "subscribe" ↔ text payload = some "subscribe" :=
    text_take_iff (by decide)
  have hshut : text (payload.take 100) = some "shutdown" ↔ text payload = some "shutdown" :=
    text_take_iff (by decide)
  unfold PublisherThread.heard change
  simp only [← hsub, ← hshut]
  by_cases hnil : payload.take 100 = []
  · rw [if_pos hnil, hnil, if_neg (text_nil_ne (by decide)), if_neg (text_nil_ne (by decide))]
    rfl
  · rw [if_neg hnil, decodeUtf8_eq]
    -- only the two words change the list, and each asks for its own change
    cases text (payload.take 100) with
    | none => simp [apply]
    | some msg =>
      by_cases hmsg : msg = "subscribe"
      · simp [hmsg, apply]
      · by_cases hmsg' : msg = "shutdown"
        · by_cases hmem : src ∈ clientaddr
          · simp [hmsg', listRemove, hmem, apply]
          · simp [hmsg', listRemove, hmem, apply, List.erase_of_not_mem]
        · simp [hmsg, hmsg', apply]

section Listening

variable (cb : K → Bytes → V) (send : Bytes → Address → σ → SendAnswer × σ)

theorem exec_listenOnce (clientaddr : List Address) (a : Arrival Address)
    (rest : List (Arrival Address)) (s : σ) :
    ((PublisherThread.listenOnce clientaddr : Py K V _).run).exec (arriving cb send)
      (a :: rest, s) = (.ok (apply clientaddr (change a)), rest, s) := by
  rw [PublisherThread.listenOnce, UDPSocket.exec_recvfrom_bind]
  cases a with
  | timeout => rfl
  | datagram payload src =>
    rw [← heard_eq]
    rfl

/-- The loop never stops, and the list is what the arrivals have asked for so far. -/
theorem exec_listen (n : ℕ) (clientaddr : List Address) (arrivals : List (Arrival Address))
    (s : σ) :
    ((PublisherThread.listen n clientaddr : Py K V _).run).exec (arriving cb send) (arrivals, s) =
      (.ok (((arrivals.take n).map change).foldl apply clientaddr), arrivals.drop n, s) := by
  induction n generalizing clientaddr arrivals with
  | zero => rfl
  | succ n ih =>
    rw [PublisherThread.listen, ExceptT.run_bind, Program.exec_bind]
    cases arrivals with
    | nil =>
      -- with nothing left to arrive, every further receive times out
      have hround : ((PublisherThread.listenOnce clientaddr : Py K V _).run).exec
          (arriving cb send) ([], s) = (.ok clientaddr, [], s) := rfl
      rw [hround]
      simpa using ih clientaddr []
    | cons a rest =>
      rw [exec_listenOnce]
      exact ih (apply clientaddr (change a)) rest

end Listening

/-- One copy of the data, as one datagram, for each subscribed address and nothing else. -/
structure PublishedOnce (subscribed : Address → Prop) (data : Bytes)
    (result : Except PyError Unit) (sent : List (Bytes × Address)) : Prop where
  returned : result = .ok ()
  once : ∀ a, subscribed a → (sent.filter fun m => m.2 = a) = [(data, a)]
  others : ∀ m ∈ sent, subscribed m.2

/-- After `n` rounds of the loop, which has not stopped: the list has no address twice and
those whose last request was to subscribe, and a publish reaches exactly these. The kernel
accepts every send. -/
def Tracks (socket : UDPSocket) (cb : K → Bytes → V) (arrivals : List (Arrival Address))
    (data : Bytes) (n : ℕ) : Prop :=
  ∃ clientaddr, (((PublisherThread.listen n [] : Py K V _).run).exec (arriving cb acceptAll)
      (arrivals, ())).1 = .ok clientaddr ∧
    clientaddr.Nodup ∧
    (∀ a, a ∈ clientaddr ↔ latest a ((arrivals.take n).map change) = some (.add a)) ∧
    PublishedOnce (fun a => latest a ((arrivals.take n).map change) = some (.add a)) data
      (((Publisher.publish socket clientaddr data : Py K V Unit).run).exec
        (arriving cb acceptAll) (arrivals.drop n, ())).1
      (sends (((Publisher.publish socket clientaddr data : Py K V Unit).run).trace
        (arriving cb acceptAll) (arrivals.drop n, ())))

theorem sendsSucceed_acceptAll (cb : K → Bytes → V) :
    UDPSocket.SendsSucceed (arriving cb acceptAll : Handler (sig Address K V) (_ × σ)) :=
  fun _ _ _ _ => rfl

theorem publishedOnce_of_nodup {clientaddr : List Address} (hnodup : clientaddr.Nodup)
    (data : Bytes) : PublishedOnce (· ∈ clientaddr) data (.ok ())
      (clientaddr.map fun addr => (data, addr)) where
  returned := rfl
  once a ha := by
    have hcount : clientaddr.count a = 1 := List.count_eq_one_of_mem hnodup ha
    have hfilter : (clientaddr.filter fun addr => addr = a) = [a] := by
      rw [List.filter_eq, hcount]
      rfl
    rw [List.filter_map]
    exact congrArg (List.map fun addr => (data, addr)) hfilter
  others m hm := by
    obtain ⟨addr, haddr, rfl⟩ := List.mem_map.mp hm
    exact haddr

section Rounds

variable {socket : UDPSocket} {cb : K → Bytes → V} {arrivals : List (Arrival Address)}
  {data : Bytes} {n : ℕ}

theorem Tracks.isSet (h : Tracks socket cb arrivals data n) :
    IsSet ((arrivals.map change).take n) := by
  obtain ⟨clientaddr, hlist, hnodup, hmem, -⟩ := h
  rw [exec_listen] at hlist
  obtain rfl := Except.ok.inj hlist
  rw [← List.map_take]
  exact ⟨hnodup, hmem⟩

theorem Tracks.fits_or_nil (h : Tracks socket cb arrivals data n) :
    data.length ≤ socket.maxPacketSize ∨ after ((arrivals.take n).map change) = [] := by
  obtain ⟨clientaddr, hlist, -, -, hpub⟩ := h
  rw [exec_listen] at hlist
  obtain rfl := Except.ok.inj hlist
  by_contra hboth
  obtain ⟨hlen, hne⟩ := not_or.mp hboth
  exact Publisher.publish_oversize socket _ hne (Nat.lt_of_not_le hlen) _ hpub.returned

theorem tracks_of_isSet (hset : IsSet ((arrivals.map change).take n))
    (hdata : data.length ≤ socket.maxPacketSize ∨ after ((arrivals.take n).map change) = []) :
    Tracks socket cb arrivals data n := by
  rw [← List.map_take] at hset
  obtain ⟨hnodup, hmem⟩ := hset
  refine ⟨after ((arrivals.take n).map change), ?_, hnodup, hmem, ?_⟩
  · rw [exec_listen]
    rfl
  · -- the addresses subscribed last are the list itself
    rw [← funext fun a => propext (hmem a)]
    rcases hdata with hlen | hnil
    · obtain ⟨hexec, hsends⟩ := Publisher.publish_fits socket (sendsSucceed_acceptAll cb)
        (after ((arrivals.take n).map change)) hlen (arrivals.drop n, ())
      rw [hexec, hsends]
      exact publishedOnce_of_nodup hnodup data
    · rw [hnil]
      exact publishedOnce_of_nodup List.nodup_nil data

end Rounds

/-- The list tracks the subscribers after every round exactly when nobody asks to subscribe
while subscribed, and the published data fits into one packet or nobody subscribes. -/
theorem tracks_iff (socket : UDPSocket) (cb : K → Bytes → V) (arrivals : List (Arrival Address))
    (data : Bytes) : (∀ n, Tracks socket cb arrivals data n) ↔
      AddsOnce (arrivals.map change) ∧
        (data.length ≤ socket.maxPacketSize ∨ ∀ a ∈ arrivals, ∀ addr, change a ≠ .add addr) := by
  constructor
  · intro h
    refine ⟨(isSet_take_iff _).mp fun n => (h n).isSet, ?_⟩
    by_cases hlen : data.length ≤ socket.maxPacketSize
    · exact .inl hlen
    · right
      intro a ha addr hadd
      obtain ⟨k, hk⟩ := List.mem_iff_getElem?.mp ha
      -- right after it subscribed, the address is on the list
      have hnil := (h (k + 1)).fits_or_nil.resolve_left hlen
      rw [List.take_add_one, hk, Option.toList_some, List.map_append, List.map_singleton,
        after_concat, hadd, apply] at hnil
      exact List.append_ne_nil_of_right_ne_nil _ (List.cons_ne_nil addr []) hnil
  · rintro ⟨honce, hdata⟩ n
    apply tracks_of_isSet ((isSet_take_iff _).mpr honce n)
    refine hdata.imp_right fun hnone => ?_
    obtain ⟨-, hmem⟩ := (isSet_take_iff _).mpr honce n
    rw [← List.map_take] at hmem
    rw [List.eq_nil_iff_forall_not_mem]
    intro addr haddr
    obtain ⟨a, ha, hadd⟩ := List.mem_map.mp (mem_of_latest ((hmem addr).mp haddr))
    exact hnone a (List.mem_of_mem_take ha) addr hadd

def subscribedTwice : List (Arrival Address) :=
  [.datagram (encode "subscribe") ("client", 9), .datagram (encode "subscribe") ("client", 9)]

theorem second_subscribe_is_appended :
    ¬ Tracks (UDPSocket.init 6000) (fun (_ : Unit) _ => ()) subscribedTwice [1] 2 := by
  rintro ⟨clientaddr, hlist, hnodup, -⟩
  have hchange : change (.datagram (encode "subscribe") ("client", 9)) = .add ("client", 9) := by
    rw [change, if_pos (text_eq_some_iff.mpr rfl)]
  rw [exec_listen] at hlist
  obtain rfl := Except.ok.inj hlist
  simp [subscribedTwice, hchange, apply] at hnodup

end Pymarko
