import Marko.PymarkoObjects

/-! Which objects share their lists. The objects of a class have one list between them, so
they are separate only as long as one of them is used alone. -/
namespace Pymarko

open Datagram Interaction

variable {K : Type}

/-! Every list of a class holds what was added through any of its objects. -/

def classEntries {X : Type} (cls : ClassName) (added : List (Added X)) : List X :=
  (added.filter fun x => x.cls = cls).map Added.entry

/-- What was added through an object was added under the object's class. -/
def Classified {X : Type} (objects : List Instance) (added : List (Added X)) : Prop :=
  ∀ x ∈ added, ∃ self, objects[x.object]? = some self ∧ self.cls = x.cls

structure Consistent (w : World K) : Prop where
  noOwn : ∀ self ∈ w.objects, self.cb = none ∧ self.clientaddr = none
  cbLists : ∀ cls ref, cls.cb = some ref → w.cbLists ref = classEntries cls w.registered
  addrLists : ∀ cls ref, cls.clientaddr = some ref →
    w.addrLists ref = classEntries cls w.appended
  registered : Classified w.objects w.registered
  appended : Classified w.objects w.appended

theorem consistent_start : Consistent (World.start : World K) where
  noOwn _ h := absurd h List.not_mem_nil
  cbLists _ _ _ := rfl
  addrLists _ _ _ := rfl
  registered _ h := absurd h List.not_mem_nil
  appended _ h := absurd h List.not_mem_nil

theorem ClassName.cb_injective {c c' : ClassName} {ref : Ref} (h : c.cb = some ref)
    (h' : c'.cb = some ref) : c = c' := by
  have hsame : c.cb = c'.cb := h.trans h'.symm
  have hsome : c.cb ≠ none := h ▸ Option.some_ne_none ref
  clear h h'
  revert hsame hsome
  cases c <;> cases c' <;> decide

theorem ClassName.clientaddr_injective {c c' : ClassName} {ref : Ref}
    (h : c.clientaddr = some ref) (h' : c'.clientaddr = some ref) : c = c' := by
  have hsame : c.clientaddr = c'.clientaddr := h.trans h'.symm
  have hsome : c.clientaddr ≠ none := h ▸ Option.some_ne_none ref
  clear h h'
  revert hsame hsome
  cases c <;> cases c' <;> decide

variable {w w' : World K} {o : ℕ} {self : Instance}

theorem getElem?_of_live (h : w.live o = some self) : w.objects[o]? = some self :=
  (Option.filter_eq_some_iff.mp h).1

theorem Consistent.getCb (hw : Consistent w) (h : w.live o = some self) :
    self.getCb = self.cls.cb := by
  have hown := (hw.noOwn self (List.mem_of_getElem? (getElem?_of_live h))).1
  rw [Instance.getCb, hown]
  rfl

theorem Consistent.getClientaddr (hw : Consistent w) (h : w.live o = some self) :
    self.getClientaddr = self.cls.clientaddr := by
  have hown := (hw.noOwn self (List.mem_of_getElem? (getElem?_of_live h))).2
  rw [Instance.getClientaddr, hown]
  rfl

theorem classEntries_concat {X : Type} {ref : ClassName → Option Ref}
    (hinj : ∀ c c' r, ref c = some r → ref c' = some r → c = c') {lists : Ref → List X}
    {added : List (Added X)} (hlists : ∀ c r, ref c = some r → lists r = classEntries c added)
    (x : Added X) {r : Ref} (hr : ref x.cls = some r) (c : ClassName) (r' : Ref)
    (hc : ref c = some r') :
    Function.update lists r (lists r ++ [x.entry]) r' = classEntries c (added ++ [x]) := by
  by_cases hrr : r' = r
  · subst hrr
    obtain rfl := hinj c x.cls r' hc hr
    rw [Function.update_self, hlists x.cls r' hr]
    simp [classEntries]
  · have hcls : ¬ x.cls = c := by
      rintro rfl
      exact hrr (Option.some.inj (hc.symm.trans hr))
    rw [Function.update_of_ne hrr, hlists c r' hc]
    simp [classEntries, hcls]

theorem Classified.concat {X : Type} {objects : List Instance} {added : List (Added X)}
    (h : Classified objects added) (ho : objects[o]? = some self) (entry : X) :
    Classified objects (added ++ [⟨o, self.cls, entry⟩]) := by
  intro x hx
  rcases List.mem_append.mp hx with hx | hx
  · exact h x hx
  · rw [List.mem_singleton.mp hx]
    exact ⟨self, ho, rfl⟩

theorem Classified.construct {X : Type} {objects : List Instance} {added : List (Added X)}
    (h : Classified objects added) (new : Instance) : Classified (objects ++ [new]) added := by
  intro x hx
  obtain ⟨self, hself, hcls⟩ := h x hx
  have hlt := (List.getElem?_eq_some_iff.mp hself).1
  exact ⟨self, (List.getElem?_append_left hlt).trans hself, hcls⟩

theorem Classified.drop {X : Type} {objects : List Instance} {added : List (Added X)}
    (h : Classified objects added) (ho : objects[o]? = some self) :
    Classified (objects.set o { self with alive := false }) added := by
  intro x hx
  obtain ⟨other, hother, hcls⟩ := h x hx
  have hlt := (List.getElem?_eq_some_iff.mp hother).1
  by_cases hxo : o = x.object
  · subst hxo
    rw [ho, Option.some.injEq] at hother
    subst hother
    exact ⟨_, List.getElem?_set_self hlt, hcls⟩
  · exact ⟨other, (List.getElem?_set_ne hxo).trans hother, hcls⟩

theorem Consistent.step {reply : K → Bytes → Option Bytes} (hw : Consistent w) {op : Op K}
    {eff : Effect K} (hstep : w.step reply op = some (eff, w')) : Consistent w' := by
  cases op with
  | construct cls =>
    obtain rfl := World.step_construct hstep
    refine ⟨?_, hw.cbLists, hw.addrLists, hw.registered.construct _, hw.appended.construct _⟩
    intro self hself
    -- `__init__` gives the object no list of its own: both are found on its class
    rcases List.mem_append.mp hself with hself | hself
    · exact hw.noOwn self hself
    · rw [List.mem_singleton.mp hself]
      exact ⟨rfl, rfl⟩
  | drop o =>
    obtain ⟨self, hlive, rfl⟩ := World.step_drop hstep
    have ho := getElem?_of_live hlive
    refine ⟨?_, hw.cbLists, hw.addrLists, hw.registered.drop ho, hw.appended.drop ho⟩
    intro other hother
    rcases List.mem_or_eq_of_mem_set hother with hother | rfl
    · exact hw.noOwn other hother
    · exact hw.noOwn self (List.mem_of_getElem? ho)
  | registerCb o callback =>
    obtain ⟨self, ref, hlive, href, rfl⟩ := World.step_registerCb hstep
    rw [hw.getCb hlive] at href
    refine ⟨hw.noOwn, ?_, hw.addrLists, hw.registered.concat (getElem?_of_live hlive) callback,
      hw.appended⟩
    exact classEntries_concat (fun _ _ _ => ClassName.cb_injective) hw.cbLists
      ⟨o, self.cls, callback⟩ href
  | appendAddr o addr =>
    obtain ⟨self, ref, hlive, href, rfl⟩ := World.step_appendAddr hstep
    rw [hw.getClientaddr hlive] at href
    refine ⟨hw.noOwn, hw.cbLists, ?_, hw.registered,
      hw.appended.concat (getElem?_of_live hlive) addr⟩
    exact classEntries_concat (fun _ _ _ => ClassName.clientaddr_injective) hw.addrLists
      ⟨o, self.cls, addr⟩ href
  | loop o datasize arrival =>
    obtain ⟨rfl, -⟩ := World.step_loop hstep
    exact hw
  | publish o data =>
    obtain ⟨rfl, -⟩ := World.step_publish hstep
    exact hw

section Entries

variable {X : Type} {cls : ClassName} {added : List (Added X)}

/-- The list of a class is an object's own exactly when all entries came through the object. -/
theorem classEntries_eq_own_iff (hclass : ∀ x ∈ added, x.object = o → x.cls = cls) :
    classEntries cls added = own o added ↔ ∀ x ∈ added, x.cls = cls → x.object = o := by
  constructor
  · -- the object's entries are among those of its class, and a sublist as long is all of it
    intro h x hx hcls
    have hown : (added.filter fun x => x.object = o) =
        (added.filter fun x => x.cls = cls).filter fun x => x.object = o := by
      rw [List.filter_filter]
      apply List.filter_congr
      intro y hy
      simpa using hclass y hy
    have hlength := congrArg List.length h
    rw [classEntries, own, List.length_map, List.length_map, hown] at hlength
    have hall := List.length_filter_eq_length_iff.mp hlength.symm x
      (List.mem_filter.mpr ⟨hx, decide_eq_true hcls⟩)
    exact of_decide_eq_true hall
  · intro h
    unfold classEntries own
    congr 1
    apply List.filter_congr
    intro x hx
    simp only [decide_eq_decide]
    exact ⟨h x hx, hclass x hx⟩

theorem mem_classEntries {entry : X} :
    entry ∈ classEntries cls added ↔ ∃ x ∈ added, x.cls = cls ∧ x.entry = entry := by
  simp [classEntries, and_assoc]

theorem Classified.cls_eq {objects : List Instance} (h : Classified objects added)
    (ho : objects[o]? = some self) : ∀ x ∈ added, x.object = o → x.cls = self.cls := by
  rintro x hx rfl
  obtain ⟨other, hother, hcls⟩ := h x hx
  rw [ho, Option.some.injEq] at hother
  rw [← hcls, hother]

end Entries

variable {reply : K → Bytes → Option Bytes} {datasize : ℕ} {arrival : Arrival Address}
  {data : Bytes} {addr : Address}

/-- A round with data runs through the callbacks `own` exactly when these are the list it
loops over, and every reply fits. -/
theorem round_own_iff (cls : ClassName) (cb own : List K)
    (hheard : heard datasize arrival = some (data, addr)) :
    ((World.effect reply [arrival] (World.loopOnce cls cb datasize)).result = .ok () ∧
      callbacks (World.effect reply [arrival] (World.loopOnce cls cb datasize)).calls =
        own.map fun callback => (callback, data)) ↔
      cb = own ∧ (cls = .reply → ∀ callback ∈ cb, ReplyFits reply maxPacketSize data callback) := by
  have hinj : Function.Injective fun callback : K => (callback, data) :=
    fun _ _ h => congrArg Prod.fst h
  -- only a reply object sends, so only its rounds can raise
  by_cases hcls : cls = .reply
  · subst hcls
    have hreturns := reply_round reply cb World.socket hheard
    constructor
    · rintro ⟨hok, hcalls⟩
      have hfits := hreturns.mp hok
      have hrun := reply_round_callbacks reply cb World.socket hheard hfits
      exact ⟨List.map_injective_iff.mpr hinj (hrun.symm.trans hcalls), fun _ => hfits⟩
    · rintro ⟨rfl, hfits⟩
      have hfits := hfits rfl
      exact ⟨hreturns.mpr hfits, reply_round_callbacks reply cb World.socket hheard hfits⟩
  · have hloop : World.loopOnce cls cb datasize = Subscriber.loopOnce cb datasize := by
      cases cls <;> first | rfl | contradiction
    obtain ⟨hok, hrun⟩ := subscriber_round reply cb hheard
    rw [hloop]
    constructor
    · rintro ⟨-, hcalls⟩
      exact ⟨List.map_injective_iff.mpr hinj (hrun.symm.trans hcalls), fun h => absurd h hcls⟩
    · rintro ⟨rfl, -⟩
      exact ⟨hok, hrun⟩

theorem round_quiet_effect (reply : K → Bytes → Option Bytes) (cls : ClassName) (cb : List K)
    (hheard : heard datasize arrival = none) :
    (World.effect reply [arrival] (World.loopOnce cls cb datasize)).result = .ok () ∧
      callbacks (World.effect reply [arrival] (World.loopOnce cls cb datasize)).calls = [] := by
  cases cls <;> exact round_quiet reply _ cb hheard

/-- A publish reaches the addresses `own` exactly when these are its list and the data fits,
or there is no address at all. -/
theorem publish_own_iff (clientaddr own : List Address) (data : Bytes) :
    ((World.effect reply [] (Publisher.publish World.socket clientaddr data)).result = .ok () ∧
      sends (World.effect reply [] (Publisher.publish World.socket clientaddr data)).calls =
        own.map fun addr => (data, addr)) ↔
      clientaddr = own ∧ ∀ addr ∈ clientaddr, data.length ≤ maxPacketSize := by
  have hinj : Function.Injective fun addr : Address => (data, addr) :=
    fun _ _ h => congrArg Prod.snd h
  by_cases hlen : data.length ≤ maxPacketSize
  · obtain ⟨hok, hsends⟩ := Publisher.publish_fits World.socket (h := roundKernel reply)
      (fun _ _ _ _ => rfl) clientaddr hlen ([], ())
    constructor
    · rintro ⟨-, hown⟩
      exact ⟨List.map_injective_iff.mpr hinj (hsends.symm.trans hown), fun _ _ => hlen⟩
    · rintro ⟨rfl, -⟩
      exact ⟨hok, hsends⟩
  · -- data that is too long raises at the first address, if there is one
    cases clientaddr with
    | nil =>
      constructor
      · rintro ⟨-, hown⟩
        exact ⟨(List.map_eq_nil_iff.mp hown.symm).symm, fun _ h => absurd h List.not_mem_nil⟩
      · rintro ⟨rfl, -⟩
        exact ⟨rfl, rfl⟩
    | cons addr rest =>
      have hraises := Publisher.publish_oversize World.socket (roundKernel reply)
        (List.cons_ne_nil addr rest) (Nat.lt_of_not_le hlen) ([], ())
      constructor
      · rintro ⟨hok, -⟩
        exact absurd hok hraises
      · rintro ⟨-, hfits⟩
        exact absurd (hfits addr List.mem_cons_self) hlen

/-- A round keeps to the object's own callbacks exactly when the class has no others. -/
theorem loop_ownOnly_iff (hw : Consistent w) (hlive : w.live o = some self) {ref : Ref}
    (href : self.getCb = some ref) (datasize : ℕ) (arrival : Arrival Address) :
    let eff := World.effect reply [arrival] (World.loopOnce self.cls (w.cbLists ref) datasize)
    (Record.mk w (.loop o datasize arrival) eff w).OwnOnly ↔
      (Record.mk w (.loop o datasize arrival) eff w).Exclusive reply := by
  rw [hw.getCb hlive] at href
  rw [hw.cbLists _ _ href]
  have hclass := hw.registered.cls_eq (getElem?_of_live hlive)
  simp only [Record.OwnOnly, Record.Exclusive, hlive, Option.some.injEq]
  cases hheard : heard datasize arrival with
  | none =>
    have hquiet := round_quiet_effect reply self.cls (classEntries self.cls w.registered) hheard
    simp [hquiet]
  | some found =>
    obtain ⟨data, addr⟩ := found
    simp only [Option.some.injEq, Prod.mk.injEq]
    rw [round_own_iff self.cls _ _ hheard, classEntries_eq_own_iff hclass]
    constructor
    · rintro ⟨hown, hfits⟩ _ _ _ rfl ⟨rfl, rfl⟩ x hx hcls
      have hentry : x.entry ∈ classEntries self.cls w.registered :=
        mem_classEntries.mpr ⟨x, hx, hcls, rfl⟩
      exact ⟨hown x hx hcls, fun hreply => hfits hreply x.entry hentry⟩
    · intro hall
      have hall := hall self data addr rfl ⟨rfl, rfl⟩
      refine ⟨fun x hx hcls => (hall x hx hcls).1, ?_⟩
      intro hreply callback hcb
      obtain ⟨x, hx, hcls, rfl⟩ := mem_classEntries.mp hcb
      exact (hall x hx hcls).2 hreply

/-- A publish keeps to the object's own addresses exactly when the class has no others. -/
theorem publish_ownOnly_iff (hw : Consistent w) (hlive : w.live o = some self) {ref : Ref}
    (href : self.getClientaddr = some ref) (data : Bytes) :
    let eff := World.effect reply [] (Publisher.publish World.socket (w.addrLists ref) data)
    (Record.mk w (.publish o data) eff w).OwnOnly ↔
      (Record.mk w (.publish o data) eff w).Exclusive reply := by
  rw [hw.getClientaddr hlive] at href
  rw [hw.addrLists _ _ href]
  have hclass := hw.appended.cls_eq (getElem?_of_live hlive)
  simp only [Record.OwnOnly, Record.Exclusive, hlive, Option.some.injEq]
  rw [publish_own_iff, classEntries_eq_own_iff hclass]
  constructor
  · rintro ⟨hown, hfits⟩ _ rfl x hx hcls
    exact ⟨hown x hx hcls, hfits x.entry (mem_classEntries.mpr ⟨x, hx, hcls, rfl⟩)⟩
  · intro hall
    have hall := hall self rfl
    refine ⟨fun x hx hcls => (hall x hx hcls).1, ?_⟩
    intro addr haddr
    obtain ⟨x, hx, hcls, rfl⟩ := mem_classEntries.mp haddr
    exact (hall x hx hcls).2

/-! An operation leaves the other objects alone unless it adds to a list that they name. -/

theorem callbacksOf_live (h : w.live o = some self) :
    w.callbacksOf o = self.getCb.map w.cbLists := by
  rw [World.callbacksOf, h]
  cases hcb : self.getCb <;> simp [hcb]

theorem addressesOf_live (h : w.live o = some self) :
    w.addressesOf o = self.getClientaddr.map w.addrLists := by
  rw [World.addressesOf, h]
  cases haddr : self.getClientaddr <;> simp [haddr]

theorem map_update_eq_iff {X : Type} (lists : Ref → List X) (ref : Ref) (entry : X)
    (named : Option Ref) :
    named.map (Function.update lists ref (lists ref ++ [entry])) = named.map lists ↔
      named ≠ some ref := by
  cases named with
  | none => simp
  | some ref' =>
    rw [Option.map_some, Option.map_some, Option.some.injEq, ne_eq, Option.some.injEq]
    constructor
    · rintro h rfl
      rw [Function.update_self] at h
      exact absurd (congrArg List.length h) (by simp)
    · intro hne
      exact Function.update_of_ne hne _ _

theorem hasSibling_iff (h : w.live o = some self) :
    Record.HasSibling w o ↔
      ∃ o' other, o' ≠ o ∧ w.live o' = some other ∧ other.cls = self.cls := by
  simp only [Record.HasSibling, h, Option.some.injEq]
  constructor
  · rintro ⟨o', _, other, hne, rfl, hother, hcls⟩
    exact ⟨o', other, hne, hother, hcls⟩
  · rintro ⟨o', other, hne, hother, hcls⟩
    exact ⟨o', self, other, hne, rfl, hother, hcls⟩

/-- What is appended to the list of a class is seen by the siblings and by no other object. -/
theorem frame_append_iff {X : Type} {attr : Instance → Option Ref}
    {ref : ClassName → Option Ref}
    (hinj : ∀ c c' r, ref c = some r → ref c' = some r → c = c')
    (hattr : ∀ o self, w.live o = some self → attr self = ref self.cls) {r : Ref}
    (hlive : w.live o = some self) (hr : attr self = some r) (lists : Ref → List X) (entry : X) :
    (∀ o' other, o' ≠ o → w.live o' = some other →
      (attr other).map (Function.update lists r (lists r ++ [entry])) = (attr other).map lists) ↔
      ¬ Record.HasSibling w o := by
  rw [hattr o self hlive] at hr
  simp only [hasSibling_iff hlive, map_update_eq_iff]
  constructor
  · rintro hframe ⟨o', other, hne, hother, hcls⟩
    exact hframe o' other hne hother (by rw [hattr o' other hother, hcls, hr])
  · intro halone o' other hne hother hnamed
    rw [hattr o' other hother] at hnamed
    exact halone ⟨o', other, hne, hother, hinj _ _ r hnamed hr⟩

/-- The frame of an operation, in terms of the attributes of the live objects. -/
theorem frame_iff_of_live {op : Op K} {eff : Effect K}
    (hlive : ∀ o, op.target ≠ some o → (w.live o).isSome → w'.live o = w.live o) :
    (Record.mk w op eff w').Frame ↔ ∀ o other, op.target ≠ some o → w.live o = some other →
      other.getCb.map w'.cbLists = other.getCb.map w.cbLists ∧
        other.getClientaddr.map w'.addrLists = other.getClientaddr.map w.addrLists := by
  constructor
  · intro hframe o other ho hother
    have hsome : (w.live o).isSome := Option.isSome_of_eq_some hother
    have hafter : w'.live o = some other := (hlive o ho hsome).trans hother
    have hkept := hframe o ho hsome
    rwa [callbacksOf_live hother, addressesOf_live hother, callbacksOf_live hafter,
      addressesOf_live hafter] at hkept
  · intro hkept o ho hsome
    obtain ⟨other, hother⟩ := Option.isSome_iff_exists.mp hsome
    have hafter : w'.live o = some other := (hlive o ho hsome).trans hother
    simp only [callbacksOf_live hother, addressesOf_live hother, callbacksOf_live hafter,
      addressesOf_live hafter]
    exact hkept o other ho hother

theorem frame_of_lists_eq (op : Op K) (eff : Effect K)
    (hlive : ∀ o, op.target ≠ some o → (w.live o).isSome → w'.live o = w.live o)
    (hcb : w'.cbLists = w.cbLists) (haddr : w'.addrLists = w.addrLists) :
    (Record.mk w op eff w').Frame := by
  rw [frame_iff_of_live hlive, hcb, haddr]
  exact fun _ _ _ _ => ⟨rfl, rfl⟩

theorem live_construct (new : Instance) (h : (w.live o).isSome) :
    World.live { w with objects := w.objects ++ [new] } o = w.live o := by
  obtain ⟨self, hself⟩ := Option.isSome_iff_exists.mp h
  have hlt := (List.getElem?_eq_some_iff.mp (getElem?_of_live hself)).1
  unfold World.live
  rw [List.getElem?_append_left hlt]

theorem live_drop {o' : ℕ} (new : Instance) (hne : o' ≠ o) :
    World.live { w with objects := w.objects.set o' new } o = w.live o := by
  unfold World.live
  rw [List.getElem?_set_ne hne]

/-- An operation is separate from the other objects exactly when its object is alone. -/
theorem separate_iff (hw : Consistent w) {op : Op K} {eff : Effect K}
    (hstep : w.step reply op = some (eff, w')) :
    (Record.mk w op eff w').Separate ↔ (Record.mk w op eff w').Exclusive reply := by
  cases op with
  | construct cls =>
    obtain rfl := World.step_construct hstep
    have hframe := frame_of_lists_eq (w := w) (.construct cls) eff
      (fun o _ hsome => live_construct (Instance.init cls) hsome) rfl rfl
    exact iff_of_true ⟨trivial, hframe⟩ trivial
  | drop o =>
    obtain ⟨self, -, rfl⟩ := World.step_drop hstep
    have hframe := frame_of_lists_eq (w := w) (.drop o) eff
      (fun o' ho' _ => live_drop { self with alive := false } fun h => ho' (congrArg some h))
      rfl rfl
    exact iff_of_true ⟨trivial, hframe⟩ trivial
  | registerCb o callback =>
    obtain ⟨self, ref, hlive, href, rfl⟩ := World.step_registerCb hstep
    have hsiblings := frame_append_iff (fun _ _ _ => ClassName.cb_injective)
      (fun _ _ h => hw.getCb h) hlive href w.cbLists callback
    -- adding runs nothing, so only the frame is at stake
    refine (and_iff_right trivial).trans (Iff.trans ?_ hsiblings)
    refine (frame_iff_of_live ?_).trans ?_
    · exact fun _ _ _ => rfl
    constructor
    · intro hkept o' other hne hother
      exact (hkept o' other (fun h => hne (Option.some.inj h).symm) hother).1
    · intro hkept o' other ho' hother
      exact ⟨hkept o' other (fun h => ho' (congrArg some h.symm)) hother, rfl⟩
  | appendAddr o addr =>
    obtain ⟨self, ref, hlive, href, rfl⟩ := World.step_appendAddr hstep
    have hsiblings := frame_append_iff (fun _ _ _ => ClassName.clientaddr_injective)
      (fun _ _ h => hw.getClientaddr h) hlive href w.addrLists addr
    refine (and_iff_right trivial).trans (Iff.trans ?_ hsiblings)
    refine (frame_iff_of_live ?_).trans ?_
    · exact fun _ _ _ => rfl
    constructor
    · intro hkept o' other hne hother
      exact (hkept o' other (fun h => hne (Option.some.inj h).symm) hother).2
    · intro hkept o' other ho' hother
      exact ⟨rfl, hkept o' other (fun h => ho' (congrArg some h.symm)) hother⟩
  | loop o datasize arrival =>
    obtain ⟨rfl, self, ref, hlive, href, rfl⟩ := World.step_loop hstep
    have hframe := frame_of_lists_eq (w := w) (.loop o datasize arrival)
      (World.effect reply [arrival] (World.loopOnce self.cls (w.cbLists ref) datasize))
      (fun _ _ _ => rfl) rfl rfl
    exact (and_iff_left hframe).trans (loop_ownOnly_iff hw hlive href datasize arrival)
  | publish o data =>
    obtain ⟨rfl, self, ref, hlive, href, rfl⟩ := World.step_publish hstep
    have hframe := frame_of_lists_eq (w := w) (.publish o data)
      (World.effect reply [] (Publisher.publish World.socket (w.addrLists ref) data))
      (fun _ _ _ => rfl) rfl rfl
    exact (and_iff_left hframe).trans (publish_ownOnly_iff hw hlive href data)

/-- In every history the objects keep to their own lists exactly when each is used alone. -/
theorem separate_history_iff (reply : K → Bytes → Option Bytes) (ops : List (Op K)) :
    (∀ r ∈ history reply World.start ops, r.Separate) ↔
      ∀ r ∈ history reply World.start ops, r.Exclusive reply := by
  -- by induction on the operations, from any consistent world
  have hall : ∀ (w : World K), Consistent w →
      ∀ r ∈ history reply w ops, (r.Separate ↔ r.Exclusive reply) := by
    induction ops with
    | nil => exact fun w _ r hr => absurd hr List.not_mem_nil
    | cons op ops ih =>
      intro w hw r hr
      rw [history] at hr
      cases hstep : w.step reply op with
      | none =>
        rw [hstep] at hr
        exact ih w hw r hr
      | some result =>
        obtain ⟨eff, w'⟩ := result
        rw [hstep] at hr
        rcases List.mem_cons.mp hr with rfl | hr
        · exact separate_iff hw hstep
        · exact ih w' (hw.step hstep) r hr
  exact forall₂_congr (hall World.start consistent_start)

/-- A callback registered on one subscriber is called by another. -/
theorem sibling_runs_callback :
    ¬ ∀ r ∈ history (fun (_ : ℕ) _ => none) World.start
        [.construct .subscriber, .construct .subscriber, .registerCb 0 7,
          .loop 1 100 (.datagram [1] ("10.0.0.2", 4000))],
      r.Separate := by
  intro hall
  have hlast := (hall _ (List.mem_of_getElem? (i := 3) rfl)).1
  have hcalls : [((7 : ℕ), ([1] : Bytes))] = [] := hlast.2
  exact List.cons_ne_nil _ _ hcalls

end Pymarko
