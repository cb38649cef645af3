import Mathlib.Data.List.Forall2
import Mathlib.Data.List.Nodup
import Mathlib.Data.Nat.Notation
import Mathlib.Data.Int.Notation

/-! `SocketInfo` of `info.hpp`: the loop of `info_so` over the options of the socket layer. One
byte and one length serve as the buffer for all of them. -/
namespace Marko

inductive SockOpt where
  | soType
  | soAcceptconn
  | soBroadcast
  | soDontroute
  | soError
  | soOobinline
  | soReuseaddr
  | soReuseport
  | soRcvbuf
  | soRcvlowat
  | soSndbuf
  | soSndlowat
  deriving DecidableEq, Repr

inductive DataType where
  | int
  | bool
  | type
  | timeval
  deriving DecidableEq, Repr

structure SoOpts where
  val : SockOpt
  description : String
  type : DataType
  deriving DecidableEq, Repr

def socketOptsSOL : List SoOpts :=
  [⟨.soType, "socket type", .type⟩,
    ⟨.soAcceptconn, "Accepting connections", .bool⟩,
    ⟨.soBroadcast, "Broadcast messages supported", .bool⟩,
    ⟨.soDontroute, "Bypass normal routing", .bool⟩,
    ⟨.soError, "Socket error status", .bool⟩,
    ⟨.soOobinline, "Out-of-band data is transmitted in line", .bool⟩,
    ⟨.soReuseaddr, "SO_REUSEADDR", .bool⟩,
    ⟨.soReuseport, "SO_REUSEPORT", .bool⟩,
    ⟨.soRcvbuf, "Receive buffer size", .int⟩,
    ⟨.soRcvlowat, "receive low water mark", .int⟩,
    ⟨.soSndbuf, "Send buffer size", .int⟩,
    ⟨.soSndlowat, "send low water mark", .int⟩]

/-- The system's numbers of the socket types, which are small ones. -/
structure TypeNumbers where
  sockDgram : ℕ
  sockRaw : ℕ
  sockStream : ℕ
  small : sockDgram < 256 ∧ sockRaw < 256 ∧ sockStream < 256

def TypeNumbers.socketTypes (T : TypeNumbers) : List (ℤ × String) :=
  [(T.sockDgram, "DGRAM"), (T.sockRaw, "RAW"), (T.sockStream, "STREAM")]

def TypeNumbers.name (T : TypeNumbers) (n : ℤ) : String := (T.socketTypes.lookup n).getD ""

/-- The map grows with every number it is asked for, and never changes a name. -/
structure SocketInfo (T : TypeNumbers) where
  socketFd : ℤ
  socketTypes : List (ℤ × String)
  named : ∀ n, (socketTypes.lookup n).getD "" = T.name n

namespace SocketInfo

variable {T : TypeNumbers}

def init (T : TypeNumbers) (fd : ℤ) : SocketInfo T := ⟨fd, T.socketTypes, fun _ => rfl⟩

/-- `socketTypes[n]`, which inserts an empty name for a number that is not in the map. -/
def typeAt (info : SocketInfo T) (n : ℤ) : String × SocketInfo T :=
  match hn : info.socketTypes.lookup n with
  | some name => (name, info)
  | none => ("",
      { info with
        socketTypes := (n, "") :: info.socketTypes
        named := fun m => by
          have hm := info.named m
          rw [List.lookup_cons]
          cases heq : m == n with
          | true =>
            rw [eq_of_beq heq, hn] at hm
            rw [eq_of_beq heq]
            exact hm
          | false => exact hm })

end SocketInfo

/-- The options as the kernel has them for one socket. -/
structure OptionKernel where
  value : SockOpt → BitVec 32
  fails : SockOpt → Bool

def byte (v : BitVec 32) (i : ℕ) : UInt8 := UInt8.ofBitVec (v.extractLsb' (8 * i) 8)

def littleEndian (v : BitVec 32) : List UInt8 := [byte v 0, byte v 1, byte v 2, byte v 3]

/-- `getsockopt`: the bytes that it writes, and `none` when it fails. -/
def OptionKernel.getsockopt (k : OptionKernel) (name : SockOpt) (size : ℕ) :
    Option (List UInt8) :=
  if k.fails name then none else some ((littleEndian (k.value name)).take (min size 4))

/-- The variables `val` and `size`, and the option that `val` was last read for. -/
structure Reading where
  val : UInt8
  size : ℕ
  -- no program can see it
  source : Option SockOpt

/-- The call for one option. Its result is dropped; more than one byte would be written past
`val`. -/
def Reading.read (k : OptionKernel) (name : SockOpt) (r : Reading) : Option Reading :=
  match k.getsockopt name r.size with
  | none => some r
  | some [] => some { r with size := 0 }
  | some [b] => some ⟨b, 1, some name⟩
  | some _ => none

/-- What `printf` is given for the second conversion, `%d` or `%s`. -/
inductive Shown where
  | number (n : ℤ)
  | text (s : String)
  deriving DecidableEq, Repr

/-- A line that is printed, `"  %s: %d\n"` or `"  %s: %s\n"`. -/
structure Line where
  description : String
  shown : Shown
  source : Option SockOpt
  deriving DecidableEq, Repr

variable {T : TypeNumbers}

def printOption (m : SoOpts) (r : Reading) (info : SocketInfo T) :
    Option Line × SocketInfo T :=
  match m.type with
  -- `int(val)`
  | .int => (some ⟨m.description, .number r.val.toNat, r.source⟩, info)
  | .bool => (some ⟨m.description, .text (if r.val ≠ 0 then "true" else "false"), r.source⟩, info)
  | .type =>
    -- the lookup itself may extend the map
    let (name, info) := info.typeAt r.val.toNat
    (some ⟨m.description, .text name, r.source⟩, info)
  | .timeval => (none, info)

def infoLoop (k : OptionKernel) :
    List SoOpts → Reading → SocketInfo T → Option (List Line × SocketInfo T)
  | [], _, info => some ([], info)
  | m :: rest, r, info => do
    let r ← r.read k m.val
    let (line, info) := printOption m r info
    let (lines, info) ← infoLoop k rest r info
    pure (line.toList ++ lines, info)

/-- The lines under the heading ` [Socket Layer]`. `val` is not initialised: it starts with any
byte. -/
def infoSo (k : OptionKernel) (val : UInt8) (info : SocketInfo T) :
    Option (List Line × SocketInfo T) :=
  infoLoop k socketOptsSOL ⟨val, 1, none⟩ info

/-- What a line for the kernel's value shows: the integer, whether it is zero, or the name of the
socket type. -/
def expected (T : TypeNumbers) : DataType → BitVec 32 → Option Shown
  | .int, v => some (.number v.toInt)
  | .bool, v => some (.text (if v ≠ 0 then "true" else "false"))
  | .type, v => some (.text (T.name v.toInt))
  | .timeval, _ => none

/-- The line for an option shows the kernel's value if it could be read, and in no case a value
that was read for another option. -/
structure Truthful (T : TypeNumbers) (k : OptionKernel) (m : SoOpts) (line : Line) : Prop where
  described : line.description = m.description
  own : k.fails m.val = false → some line.shown = expected T m.type (k.value m.val)
  unmixed : line.source = none ∨ line.source = some m.val

/-- The values that their lowest byte stands for. -/
def FitsByte (T : TypeNumbers) : DataType → BitVec 32 → Prop
  | .int, v => v.toNat < 256
  | .bool, v => v = 0 ∨ v.toNat % 256 ≠ 0
  | .type, v => v.toNat < 256 ∨
      v.toNat % 256 ≠ T.sockDgram ∧ v.toNat % 256 ≠ T.sockRaw ∧ v.toNat % 256 ≠ T.sockStream
  | .timeval, _ => True

section Bytes

/-- The `int` that a `u_char` is promoted to. -/
def promote (b : UInt8) : BitVec 32 := b.toBitVec.setWidth 32

theorem toInt_promote (b : UInt8) : (promote b).toInt = b.toNat := by
  have hb : b.toNat < 256 := b.toNat_lt
  have hval : (promote b).toNat = b.toNat := by
    rw [promote, BitVec.toNat_setWidth]
    exact Nat.mod_eq_of_lt (Nat.lt_of_lt_of_le hb (by decide))
  rw [BitVec.toInt_eq_toNat_cond, hval, if_pos (by omega)]

theorem promote_ne_zero_iff (b : UInt8) : promote b ≠ 0 ↔ b ≠ 0 := by
  rw [ne_eq, ne_eq, not_iff_not, ← BitVec.toInt_inj, toInt_promote, ← UInt8.toNat_inj]
  exact Int.natCast_eq_zero

theorem toNat_byte_zero (v : BitVec 32) : (byte v 0).toNat = v.toNat % 256 := by
  show (v.extractLsb' 0 8).toNat = _
  rw [BitVec.extractLsb'_toNat, Nat.shiftRight_zero]

theorem promote_byte_zero_ne_zero_iff (v : BitVec 32) :
    promote (byte v 0) ≠ 0 ↔ v.toNat % 256 ≠ 0 := by
  rw [promote_ne_zero_iff, ← toNat_byte_zero, ne_eq, ne_eq, not_iff_not, ← UInt8.toNat_inj]
  rfl

/-- A 32-bit value is its own lowest byte when it is as small as that. -/
theorem toInt_eq_mod_iff (v : BitVec 32) : v.toInt = (v.toNat % 256 : ℕ) ↔ v.toNat < 256 := by
  have hlt : v.toNat < 2 ^ 32 := v.isLt
  rw [BitVec.toInt_eq_toNat_cond]
  split_ifs <;> omega

end Bytes

section Line

theorem TypeNumbers.name_eq_empty_iff (T : TypeNumbers) (n : ℤ) :
    T.name n = "" ↔ n ≠ T.sockDgram ∧ n ≠ T.sockRaw ∧ n ≠ T.sockStream := by
  rw [TypeNumbers.name, TypeNumbers.socketTypes, ← beq_eq_false_iff_ne, ← beq_eq_false_iff_ne,
    ← beq_eq_false_iff_ne, List.lookup_cons, List.lookup_cons, List.lookup_cons, List.lookup_nil]
  cases n == (T.sockDgram : ℤ) with
  | true => simp
  | false =>
    cases n == (T.sockRaw : ℤ) with
    | true => simp
    | false => cases n == (T.sockStream : ℤ) <;> simp

/-- No type has a number of more than one byte. -/
theorem TypeNumbers.name_toInt_of_le (T : TypeNumbers) (v : BitVec 32) (hv : 256 ≤ v.toNat) :
    T.name v.toInt = "" := by
  have hlt : v.toNat < 2 ^ 32 := v.isLt
  obtain ⟨hdgram, hraw, hstream⟩ := T.small
  rw [T.name_eq_empty_iff, BitVec.toInt_eq_toNat_cond]
  split_ifs <;> omega

theorem expected_byte_iff (T : TypeNumbers) (t : DataType) (v : BitVec 32) :
    expected T t (promote (byte v 0)) = expected T t v ↔ FitsByte T t v := by
  have hbyte : (promote (byte v 0)).toInt = (v.toNat % 256 : ℕ) := by
    rw [toInt_promote, toNat_byte_zero]
  cases t with
  | int =>
    rw [expected, expected, Option.some_inj, Shown.number.injEq, hbyte, eq_comm]
    exact toInt_eq_mod_iff v
  | bool =>
    rw [expected, expected, FitsByte, if_congr (promote_byte_zero_ne_zero_iff v) rfl rfl]
    by_cases hv : v = 0
    · rw [hv]
      exact iff_of_true rfl (.inl rfl)
    · rw [if_pos (c := v ≠ 0) hv]
      split_ifs with hmod
      · exact iff_of_true rfl (.inr hmod)
      · exact iff_of_false (by decide) fun hfit => hfit.elim hv hmod
  | type =>
    rw [expected, expected, Option.some_inj, Shown.text.injEq, hbyte]
    by_cases hv : v.toNat < 256
    · rw [(toInt_eq_mod_iff v).2 hv]
      exact iff_of_true rfl (.inl hv)
    · rw [T.name_toInt_of_le v (Nat.le_of_not_lt hv), T.name_eq_empty_iff]
      simp only [FitsByte, hv, false_or, ne_eq, Int.natCast_inj]
  | timeval => exact iff_of_true rfl trivial

theorem SocketInfo.typeAt_fst (info : SocketInfo T) (n : ℤ) : (info.typeAt n).1 = T.name n := by
  have hn := info.named n
  rw [SocketInfo.typeAt]
  split
  · next name hname => rwa [hname] at hn
  · next hname => rwa [hname] at hn

/-- The line shows the byte as if it were the whole value. -/
theorem printOption_fst (m : SoOpts) (r : Reading) (info : SocketInfo T) :
    (printOption m r info).1 =
      (expected T m.type (promote r.val)).map fun s => ⟨m.description, s, r.source⟩ := by
  rw [printOption]
  cases m.type with
  | int =>
    rw [expected, toInt_promote]
    rfl
  | bool =>
    simp only [expected, promote_ne_zero_iff]
    rfl
  | type =>
    rw [expected, toInt_promote, ← info.typeAt_fst]
    rfl
  | timeval => rfl

theorem exists_line {m : SoOpts} (hm : m.type ≠ .timeval) (r : Reading) (info : SocketInfo T) :
    ∃ s, expected T m.type (promote r.val) = some s ∧
      (printOption m r info).1 = some ⟨m.description, s, r.source⟩ := by
  have hsome : ∃ s, expected T m.type (promote r.val) = some s := by
    cases htype : m.type with
    | timeval => exact absurd htype hm
    | _ => exact ⟨_, rfl⟩
  obtain ⟨s, hs⟩ := hsome
  exact ⟨s, hs, by rw [printOption_fst, hs]; rfl⟩

end Line

section Loop

variable {k : OptionKernel} {m : SoOpts} {r r' : Reading}

theorem Reading.read_of_fails (hfails : k.fails m.val = true) : r.read k m.val = some r := by
  rw [Reading.read, OptionKernel.getsockopt, if_pos hfails]

/-- One byte is written, and the length that is written back is one again. -/
theorem Reading.read_of_size (hreads : k.fails m.val = false) (hsize : r.size = 1) :
    r.read k m.val = some ⟨byte (k.value m.val) 0, 1, some m.val⟩ := by
  rw [Reading.read, OptionKernel.getsockopt, hsize, hreads]
  rfl

theorem infoLoop_cons (k : OptionKernel) (m : SoOpts) (ms : List SoOpts) (r : Reading)
    (info : SocketInfo T) : infoLoop k (m :: ms) r info =
      (r.read k m.val).bind fun r' => (infoLoop k ms r' (printOption m r' info).2).map fun q =>
        ((printOption m r' info).1.toList ++ q.1, q.2) := by
  rw [infoLoop]
  cases r.read k m.val with
  | none => rfl
  | some r' =>
    simp only [Option.bind_eq_bind, Option.bind_some]
    cases infoLoop k ms r' (printOption m r' info).2 <;> rfl

/-- The names in the map do not change, so neither do the lines. -/
theorem infoLoop_lines (k : OptionKernel) (ms : List SoOpts) (r : Reading)
    (info info' : SocketInfo T) :
    (infoLoop k ms r info).map Prod.fst = (infoLoop k ms r info').map Prod.fst := by
  induction ms generalizing r info info' with
  | nil => rfl
  | cons m ms ih =>
    rw [infoLoop_cons, infoLoop_cons]
    cases r.read k m.val with
    | none => rfl
    | some r' =>
      have hrest := ih r' (printOption m r' info).2 (printOption m r' info').2
      have hline : (printOption m r' info).1 = (printOption m r' info').1 := by
        rw [printOption_fst, printOption_fst]
      have hlines {α : Type} (f : List Line → α) (x : Option (List Line × SocketInfo T)) :
          x.map (fun q => f q.1) = (x.map Prod.fst).map f := by
        rw [Option.map_map]
        rfl
      simp only [Option.bind_some, Option.map_map, Function.comp_def, hline]
      rw [hlines, hrest, ← hlines]

/-- However often an object has printed before, it prints what a new one does. -/
theorem infoSo_lines (k : OptionKernel) (val : UInt8) (info : SocketInfo T) (fd : ℤ) :
    (infoSo k val info).map Prod.fst = (infoSo k val (.init T fd)).map Prod.fst :=
  infoLoop_lines k socketOptsSOL ⟨val, 1, none⟩ info (.init T fd)

/-- The loop runs to its end, and its lines are related to the options. -/
def Prints (k : OptionKernel) (Q : SoOpts → Line → Prop) (ms : List SoOpts) (r : Reading)
    (info : SocketInfo T) : Prop :=
  ∃ lines info', infoLoop k ms r info = some (lines, info') ∧ List.Forall₂ Q ms lines

theorem prints_nil (k : OptionKernel) (Q : SoOpts → Line → Prop) (r : Reading)
    (info : SocketInfo T) : Prints k Q [] r info :=
  ⟨[], info, rfl, .nil⟩

theorem prints_cons_iff {Q : SoOpts → Line → Prop} {ms : List SoOpts} {line : Line}
    {info : SocketInfo T} (hread : r.read k m.val = some r')
    (hline : (printOption m r' info).1 = some line) :
    Prints k Q (m :: ms) r info ↔
      Q m line ∧ Prints k Q ms r' (printOption m r' info).2 := by
  have hloop : infoLoop k (m :: ms) r info =
      (infoLoop k ms r' (printOption m r' info).2).map fun q => (line :: q.1, q.2) := by
    rw [infoLoop_cons, hread, Option.bind_some, hline]
    rfl
  rw [Prints, Prints, hloop]
  constructor
  · rintro ⟨lines, info', hlines, hall⟩
    obtain ⟨⟨rest, last⟩, hrest, hpair⟩ := Option.map_eq_some_iff.1 hlines
    obtain ⟨rfl, rfl⟩ := Prod.mk.inj hpair
    obtain ⟨hhead, htail⟩ := List.forall₂_cons.1 hall
    exact ⟨hhead, rest, last, hrest, htail⟩
  · rintro ⟨hhead, rest, last, hrest, htail⟩
    exact ⟨line :: rest, last, by rw [hrest]; rfl, .cons hhead htail⟩

theorem truthful_own_iff {s : Shown} (hreads : k.fails m.val = false)
    (hs : expected T m.type (promote (byte (k.value m.val) 0)) = some s) :
    Truthful T k m ⟨m.description, s, some m.val⟩ ↔ FitsByte T m.type (k.value m.val) := by
  rw [← expected_byte_iff, hs]
  exact ⟨fun ht => ht.own hreads, fun heq => ⟨rfl, fun _ => heq, .inr rfl⟩⟩

/-- After a failed call the line is about what `val` held before. -/
theorem truthful_stale_iff {s : Shown} {source : Option SockOpt} (hfails : k.fails m.val = true)
    (hsource : source ≠ some m.val) :
    Truthful T k m ⟨m.description, s, source⟩ ↔ source = none := by
  refine ⟨fun ht => ht.unmixed.resolve_right hsource, fun hnone => ⟨rfl, ?_, .inl hnone⟩⟩
  intro hreads
  rw [hfails] at hreads
  contradiction

theorem prints_truthful_iff {ms : List SoOpts} (hshown : ∀ m ∈ ms, m.type ≠ .timeval)
    (hdistinct : (ms.map SoOpts.val).Nodup) (hsize : r.size = 1)
    (hsource : ∀ m ∈ ms, r.source ≠ some m.val) (info : SocketInfo T) :
    Prints k (Truthful T k) ms r info ↔
      (∀ m ∈ ms, k.fails m.val = false → FitsByte T m.type (k.value m.val)) ∧
      (r.source ≠ none → ∀ m ∈ ms, k.fails m.val = false) ∧
      ms.Pairwise (fun m m' => k.fails m'.val = true → k.fails m.val = true) := by
  induction ms generalizing r info with
  | nil =>
    refine iff_of_true (prints_nil _ _ _ _) ⟨?_, ?_, .nil⟩
    · intro m hm
      contradiction
    · intro _ m hm
      contradiction
  | cons m ms ih =>
    obtain ⟨hshown, hshowns⟩ := List.forall_mem_cons.1 hshown
    obtain ⟨hnew, hdistinct⟩ := List.nodup_cons.1 hdistinct
    obtain ⟨hother, hothers⟩ := List.forall_mem_cons.1 hsource
    rw [List.forall_mem_cons, List.forall_mem_cons, List.pairwise_cons]
    cases hfails : k.fails m.val with
    | true =>
      -- `val` stays what it was, which is no other option's only if none was read so far
      obtain ⟨s, -, hline⟩ := exists_line hshown r info
      rw [prints_cons_iff (Reading.read_of_fails hfails) hline,
        truthful_stale_iff hfails hother, ih hshowns hdistinct hsize hothers]
      simp only [Bool.true_eq_false, false_implies, true_and, implies_true, false_and]
      constructor
      · rintro ⟨hnone, hfits, -, hpair⟩
        exact ⟨hfits, fun hsome => hsome hnone, hpair⟩
      · rintro ⟨hfits, hnone, hpair⟩
        exact ⟨not_not.1 hnone, hfits, fun hsome => absurd (not_not.1 hnone) hsome, hpair⟩
    | false =>
      -- from here on `val` is about this option, so that no later call may fail
      have hread := Reading.read_of_size hfails hsize
      obtain ⟨s, hs, hline⟩ := exists_line hshown ⟨byte (k.value m.val) 0, 1, some m.val⟩ info
      have hnext : ∀ m' ∈ ms, some m.val ≠ some m'.val := by
        intro m' hm' heq
        exact hnew (List.mem_map.2 ⟨m', hm', (Option.some_inj.1 heq).symm⟩)
      rw [prints_cons_iff hread hline, truthful_own_iff hfails hs,
        ih hshowns hdistinct rfl hnext]
      simp only [ne_eq, reduceCtorEq, not_false_eq_true, true_implies, true_and,
        Bool.false_eq_true, imp_false, Bool.not_eq_true]
      constructor
      · rintro ⟨hfit, hfits, hreads, hpair⟩
        exact ⟨⟨hfit, hfits⟩, fun _ => hreads, hreads, hpair⟩
      · rintro ⟨⟨hfit, hfits⟩, -, hreads, hpair⟩
        exact ⟨hfit, hfits, hreads, hpair⟩

end Loop

/-- Every line is truthful exactly when each value that can be read is one that its lowest byte
stands for, and once an option was read no later one fails. -/
theorem info_so_truthful_iff (T : TypeNumbers) (k : OptionKernel) (val : UInt8)
    (info : SocketInfo T) :
    (∃ lines info', infoSo k val info = some (lines, info') ∧
        List.Forall₂ (Truthful T k) socketOptsSOL lines) ↔
      (∀ m ∈ socketOptsSOL, k.fails m.val = false → FitsByte T m.type (k.value m.val)) ∧
      socketOptsSOL.Pairwise (fun m m' => k.fails m'.val = true → k.fails m.val = true) := by
  have hshown : ∀ m ∈ socketOptsSOL, m.type ≠ .timeval := by decide
  have hdistinct : (socketOptsSOL.map SoOpts.val).Nodup := by decide
  have hunread : ∀ m ∈ socketOptsSOL, (none : Option SockOpt) ≠ some m.val :=
    fun _ _ => Option.some_ne_none _ ∘ Eq.symm
  refine (prints_truthful_iff hshown hdistinct rfl hunread info).trans ?_
  exact and_congr_right fun _ => and_iff_right fun hsome => absurd rfl hsome

/-- A receive buffer of 212992 bytes, whose lowest byte is zero. -/
theorem receive_buffer_shown_as_zero :
    ¬ ∀ (T : TypeNumbers) (k : OptionKernel) (val : UInt8) (info : SocketInfo T),
      ∃ lines info', infoSo k val info = some (lines, info') ∧
        List.Forall₂ (Truthful T k) socketOptsSOL lines := by
  intro hall
  obtain ⟨lines, info', hrun, htrue⟩ := hall ⟨2, 3, 1, by decide⟩
    ⟨fun name => if name = .soRcvbuf then 212992 else 1, fun _ => false⟩ 0 (.init _ 3)
  have hbuffer : (some (lines, info')).map (fun q => q.1[8]?.map Line.shown) =
      some (some (.number 0)) := by
    rw [← hrun]
    decide
  obtain ⟨line, hline, hzero⟩ := Option.map_eq_some_iff.1 (Option.some_inj.1 hbuffer)
  obtain ⟨hlength, rfl⟩ := List.getElem?_eq_some_iff.1 hline
  have htruth := htrue.get (i := 8) (by decide) hlength
  have hshown := htruth.own rfl
  rw [List.get_eq_getElem, hzero] at hshown
  exact absurd hshown (by decide)

end Marko
