import Marko.MeshDelivery
import Marko.PymarkoTransport

/-! Lists of fields over a mesh: packed by `Ascii` of `pymarko/transport.py`, published by either
library, and unpacked by the callbacks of a Python subscriber. -/
namespace Pymarko.Ascii

open Datagram

theorem unpack_pack {xs : List String} (hxs : Separable xs) : unpack (pack xs) = .ok xs :=
  loads_eq_ok_iff.mpr ⟨hxs, rfl⟩

/-- A buffer that is too small cuts something off that is missed. -/
theorem unpack_take_pack_iff {xs : List String} (hxs : Separable xs) (n : ℕ) :
    unpack ((pack xs).take n) = .ok xs ↔ (pack xs).length ≤ n := by
  constructor
  · intro h
    have hall : (pack xs).take n = pack xs := (loads_eq_ok_iff.mp h).2
    exact List.take_eq_self_iff _ |>.mp hall
  · intro hn
    rw [List.take_of_length_le hn]
    exact unpack_pack hxs

/-- The fields in a message, and none when it has none. -/
def fields (m : Bytes) : List String := (unpack m).toOption.getD []

theorem fields_pack {xs : List String} (hxs : Separable xs) : fields (pack xs) = xs := by
  rw [fields, unpack_pack hxs]
  rfl

end Pymarko.Ascii

namespace Interop

open Datagram Interaction Pymarko

variable {K : Type}

/-- How often the address `i` is on the list of a publisher. -/
def Station.copies (i : Address) : Station K → ℕ
  | .cppPublisher p => p.clientaddrs.count i
  | .publisher _ clientaddr => clientaddr.count i
  | _ => 0

/-- A message that the station can publish in one piece. -/
def Station.Fits : Station K → Bytes → Prop
  | .publisher socket _, data => data.length ≤ socket.maxPacketSize
  | _, _ => True

theorem Station.wire_of_fits {s : Station K} {data : Bytes} (h : s.Fits data) (i : Address) :
    s.wire i data = List.replicate (s.copies i) data := by
  cases s with
  | publisher socket clientaddr => exact if_pos h
  | _ => rfl

namespace Mesh

variable (M : Mesh K)

def copies (src i : Address) : ℕ := (M.station src).elim 0 fun s => s.copies i

/-- What was published so far are the lists `rows`, packed: none of the packs is empty, or too long
for a packet of its publisher. -/
structure Packed (N : NetState K) (rows : Address → List (List String)) : Prop where
  published : ∀ src, published N src = (rows src).map Ascii.pack
  separable : ∀ src, ∀ row ∈ rows src, Ascii.Separable row
  nonempty : ∀ src, ∀ row ∈ rows src, Ascii.pack row ≠ []
  fits : ∀ src s, M.station src = some s → ∀ row ∈ rows src, s.Fits (Ascii.pack row)

variable {M} {N : NetState K} {rows : Address → List (List String)}

theorem Packed.wire (h : M.Packed N rows) (src i : Address) :
    M.wire N src i =
      ((rows src).flatMap fun row => List.replicate (M.copies src i) row).map Ascii.pack := by
  rw [Mesh.wire, h.published, List.flatMap_map, List.map_flatMap]
  apply List.flatMap_congr
  intro row hrow
  rw [List.map_replicate, copies]
  cases hs : M.station src with
  | none => rfl
  | some s => exact Station.wire_of_fits (h.fits src s hs row hrow) i

/-- The lists told by `src`. -/
def rowsFrom (src : Address) (told : List (Address × List String)) : List (List String) :=
  (told.filter (·.1 = src)).map Prod.snd

/-- Who sent a datagram, and the fields in it. -/
def rowOf (p : Packet Address) : Address × List String := (p.src, Ascii.fields p.payload)

theorem rowsFrom_map_rowOf (src : Address) (ts : List (Packet Address)) :
    rowsFrom src (ts.map rowOf) = (payloadsFrom src ts).map Ascii.fields := by
  rw [rowsFrom, payloadsFrom, List.filter_map, List.map_map, List.map_map]
  rfl

theorem Packed.map_fields (h : M.Packed N rows) (src i : Address) :
    (M.wire N src i).map Ascii.fields =
      (rows src).flatMap fun row => List.replicate (M.copies src i) row := by
  rw [h.wire, List.map_map]
  refine (List.map_congr_left ?_).trans (List.map_id _)
  intro row hrow
  obtain ⟨row', hrow', hcopy⟩ := List.mem_flatMap.mp hrow
  rw [List.eq_of_mem_replicate hcopy]
  exact Ascii.fields_pack (h.separable src row' hrow')

/-- Every datagram that reaches anybody is a list that its sender published. -/
theorem Packed.of_mem_wire (h : M.Packed N rows) {src i : Address} {m : Bytes}
    (hm : m ∈ M.wire N src i) : ∃ row ∈ rows src, m = Ascii.pack row := by
  rw [h.wire] at hm
  obtain ⟨row, hrow, rfl⟩ := List.mem_map.mp hm
  obtain ⟨row', hrow', hcopy⟩ := List.mem_flatMap.mp hrow
  rw [List.eq_of_mem_replicate hcopy]
  exact ⟨row', hrow', rfl⟩

variable [DecidableEq K] {D : Marko.SocketDefs} {P : Policy Address}
  {c : Config Address K (Option Bytes) Work Result}

/-- On any network, with any interleaving and any publishers of packed lists: unpacking what the
callbacks of a Python subscriber with room in its buffer were handed gives the lists that were
published, or what is left of them when they do not fit into `datasize` bytes; and from each
publisher these lists, with those that are still to come, are kept of the ones it published, each
as often as the subscriber is on its list. -/
theorem fields_kept (hc : (network (M.deployment D) P).Reachable c) {i : Address} {cb : List K}
    {datasize : ℕ} (hi : M.station i = some (.subscriber cb datasize)) (hsize : 0 < datasize)
    (hrows : M.Packed c.net rows) :
    ∃ told owed, (c.net.calls i ++ owed).map (fun call => (call.1, Ascii.unpack call.2)) =
        told.flatMap (fun e : Address × List String =>
          cb.map fun k => (k, Ascii.unpack ((Ascii.pack e.2).take datasize))) ∧
      (c.act i = .idle → owed = []) ∧
      (∀ e ∈ told, Ascii.unpack ((Ascii.pack e.2).take datasize) = .ok e.2 ↔
        (Ascii.pack e.2).length ≤ datasize) ∧
      ∀ src, ∃ rest, (c.net.queue i = [] → c.net.flight (src, i) = [] → c.act src = .idle →
          rest = []) ∧
        Kept P.reorder P.lossy (rowsFrom src told ++ rest)
          ((rows src).flatMap fun row => List.replicate (M.copies src i) row) := by
  obtain ⟨ls, hrun⟩ := hc
  obtain ⟨owed, hcalled, howed⟩ := (M.fanOut D).calls_of_run hrun i
  have hview : (M.fanOut D).view i = Subscriber.asks cb datasize := view_of_station hi
  rw [hview] at hcalled
  have hpacked (p : Packet Address) (hp : p ∈ taken (events i ls)) :
      ∃ row ∈ rows p.src, p.payload = Ascii.pack row := by
    have hsent := (M.fanOut D).source_of_taken hrun hp
    exact hrows.of_mem_wire (M.payloadsTo_started c.net p.src i ▸ hsent)
  have hrowOf (p : Packet Address) (hp : p ∈ taken (events i ls)) :
      Ascii.Separable (rowOf p).2 ∧ Ascii.pack (rowOf p).2 = p.payload ∧ p.payload ≠ [] := by
    obtain ⟨row, hrow, heq⟩ := hpacked p hp
    have hseparable := hrows.separable p.src row hrow
    have hfields : (rowOf p).2 = row := by
      rw [rowOf, heq, Ascii.fields_pack hseparable]
    rw [hfields, heq]
    exact ⟨hseparable, rfl, hrows.nonempty p.src row hrow⟩
  refine ⟨(taken (events i ls)).map rowOf, owed, ?_, howed, ?_, ?_⟩
  · rw [hcalled, List.map_flatMap, List.flatMap_map]
    apply List.flatMap_congr
    intro p hp
    obtain ⟨-, hpack, hne⟩ := hrowOf p hp
    -- a buffer with room cuts nothing down to nothing
    have htake : p.payload.take datasize ≠ [] := by
      rw [Ne, List.take_eq_nil_iff, not_or]
      exact ⟨hsize.ne', hne⟩
    rw [hpack, Subscriber.asks, if_neg htake, List.map_map]
    rfl
  · intro e he
    obtain ⟨p, hp, rfl⟩ := List.mem_map.mp he
    exact Ascii.unpack_take_pack_iff (hrowOf p hp).1 datasize
  · intro src
    obtain ⟨pending, hpending, hkept⟩ := (M.fanOut D).traffic_of_run hrun src i
    have hread := hkept.map Ascii.fields
    refine ⟨(payloadsFrom src (c.net.queue i) ++ (c.net.flight (src, i)).map Packet.payload ++
      pending).map Ascii.fields, ?_, ?_⟩
    · intro hqueue hflight hidle
      rw [hqueue, hflight, hpending hidle]
      rfl
    · have hsent := hrows.map_fields src i
      rw [← M.payloadsTo_started] at hsent
      rw [rowsFrom_map_rowOf, ← List.map_append, ← hsent]
      simp only [List.append_assoc] at hread ⊢
      exact hread

/-- A Python publisher of one Python subscriber that has room for three bytes. -/
def smallRoom : Mesh ℕ where
  station i :=
    if i = ("host", 1) then some (.publisher ⟨8, Nat.succ_pos 7⟩ [("host", 2)])
    else if i = ("host", 2) then some (.subscriber [20] 3)
    else none
  callback _ _ _ := none

def smallRoomRows (src : Address) : List (List String) :=
  if src = ("host", 1) then [["x", "y"], ["long"]] else []

/-- The two lists are published, and the subscriber takes both. -/
def smallRoomRun : List (Label Address ℕ Work Result) :=
  let publish (data : Bytes) : List (Label Address ℕ Work Result) :=
    [.party ("host", 1) (.start (.publish data)), .party ("host", 1) (.sent data ("host", 2)),
      .party ("host", 1) (.finished (.publish data) (.ok ())),
      .transit (.arrive ("host", 1) ("host", 2) 0)]
  let receive (n : ℕ) (data told : Bytes) : List (Label Address ℕ Work Result) :=
    [.party ("host", 2) (.start .receive),
      .party ("host", 2) (.received ⟨("host", 1), data, ("host", 1), n⟩),
      .party ("host", 2) (.invoked 20 told), .party ("host", 2) (.finished .receive (.ok ()))]
  let first := Ascii.pack ["x", "y"]
  let second := Ascii.pack ["long"]
  publish first ++ publish second ++ receive 0 first first ++ receive 1 second (second.take 3)

theorem mem_smallRoomRows {src : Address} {row : List String} (h : row ∈ smallRoomRows src) :
    row = ["x", "y"] ∨ row = ["long"] := by
  unfold smallRoomRows at h
  split_ifs at h
  · simpa using h
  · exact absurd h List.not_mem_nil

theorem smallRoom_run : ∃ c,
    (network (smallRoom.deployment .failure) reorderingNetwork).run smallRoomRun
      (network (smallRoom.deployment .failure) reorderingNetwork).init = some c ∧
    c.net.calls ("host", 2) = [(20, [120, 58, 121]), (20, [108, 111, 110])] ∧
    c.act ("host", 2) = .idle :=
  ⟨_, rfl, rfl, rfl⟩

theorem smallRoom_packed {c : Config Address ℕ (Option Bytes) Work Result}
    (hrun : (network (smallRoom.deployment .failure) reorderingNetwork).run smallRoomRun
      (network (smallRoom.deployment .failure) reorderingNetwork).init = some c) :
    smallRoom.Packed c.net smallRoomRows where
  published src := by
    rw [published, started_eq_jobs hrun src]
    by_cases hpublisher : src = ("host", 1)
    · rw [hpublisher]
      rfl
    · -- nobody else publishes anything
      have hrows : smallRoomRows src = [] := if_neg hpublisher
      rw [hrows]
      by_cases hsubscriber : src = ("host", 2)
      · rw [hsubscriber]
        rfl
      · have hevents : events src smallRoomRun = [] := by
          simp [events, smallRoomRun, Ne.symm hpublisher, Ne.symm hsubscriber]
        rw [hevents]
        rfl
  separable src row hrow := by
    rcases mem_smallRoomRows hrow with rfl | rfl
    · exact ⟨by decide, by decide⟩
    · exact ⟨by decide, by decide⟩
  nonempty src row hrow := by
    rcases mem_smallRoomRows hrow with rfl | rfl
    · decide
    · decide
  fits src s hs row hrow := by
    have hlen : (Ascii.pack row).length ≤ 8 := by
      rcases mem_smallRoomRows hrow with rfl | rfl
      · decide
      · decide
    unfold smallRoom at hs
    dsimp only at hs
    split_ifs at hs
    · rw [← Option.some.inj hs]
      exact hlen
    · rw [← Option.some.inj hs]
      trivial

/-- The first list is told as it is, and of the second one as much as there is room for. -/
theorem fields_kept_small_room : ∃ told : List (Address × List String),
    ([(20, .ok ["x", "y"]), (20, .ok ["lon"])] : List (ℕ × Except PyError (List String))) =
      told.flatMap (fun e => [20].map fun k => (k, Ascii.unpack ((Ascii.pack e.2).take 3))) ∧
    (rowsFrom ("host", 1) told).Subperm [["x", "y"], ["long"]] := by
  obtain ⟨c, hrun, hcalls, hidle⟩ := smallRoom_run
  have hsubscriber : smallRoom.station ("host", 2) = some (.subscriber [20] 3) := rfl
  obtain ⟨told, owed, htold, howed, -, hkept⟩ :=
    fields_kept ⟨smallRoomRun, hrun⟩ hsubscriber (by decide) (smallRoom_packed hrun)
  obtain ⟨rest, -, hfirst⟩ := hkept ("host", 1)
  refine ⟨told, ?_, (List.sublist_append_left _ _).subperm.trans hfirst.subperm⟩
  rw [hcalls, howed hidle, List.append_nil] at htold
  exact htold

end Mesh

end Interop
