import Mathlib.Data.List.Basic
import Mathlib.Data.Fintype.Basic
import Mathlib.Algebra.Group.Nat.Defs

/-!
# Terminal modes

A client sends the modes of its terminal as a byte string: an opcode and four bytes of value for
each mode, up to an opcode that ends the list. `apply_terminal_modes` goes through the string by
index and applies one mode after the other to the settings of the terminal. The string is the
client's, and may end anywhere.

What the flags and the speeds are on a platform, and how a speed is set, is a parameter.

## Indices and lists

The source is a loop over an index, with five accesses to the string in each turn and a check in
front of four of them. `applyLoop` is this loop, with accesses that may fail and with fuel. The
abstract side is a list of entries, folded over the settings. `applyTerminalModes_eq` says that
the first is the second, on every string. So no access fails, the fuel of one turn for each byte
is enough, and what is applied is the entries in front of what ends them.

That there always is an end needs no care from the client: the string stops, or an opcode is
zero or from the undefined range, or fewer than four bytes follow. `ModesEnd` has these cases,
and every string is entries and such an end in exactly one way.

## Opcodes

There are 256 of them. Some have a name, and the five functions from opcodes to flags and
indices have them as the source does, with the two that exist on Linux only. All others up to
159 take a value and do nothing. This is the reason why the sizes of values are fixed: a list
with an opcode that is not known can be read to its end. `namedOpcodes` lists those with a name
on their own account, and the functions are compared with it on all 256.

## Settings

Four words of flags, an array of control characters, and whatever the platform keeps of the
speeds. The flags are bits of a platform, so they are parameters, and nothing is assumed of
them. Removing a flag keeps the other bits that have names.

A control character of 255 means that there is none.

## Main definitions

* `Platform`, `Termios` — what flags are, and the settings
* `applyMode`, `applyLoop`, `applyTerminalModes` — the source's functions
* `ModeEntry`, `entriesOf`, `ModesEnd` — what a string says

## Main results

* `applyTerminalModes_eq` — the loop ends, looks at no byte outside of the string, and applies
  the entries of `entriesOf`
* `applyModes_as_sent` — what is applied of an encoded list is that list, whatever follows it,
  and an unknown opcode does nothing
-/

namespace Dssh

/-! ## The platform

Which bits the flags have, and which of them exist, differs between systems. The results hold for
any. -/

/-- `SpecialCharacterIndices`, those with an opcode. -/
inductive SpecialCharacter where
  | vintr | vquit | verase | vkill | veof | veol | veol2 | vstart | vstop | vsusp | vreprint
  | vwerase | vlnext | vdiscard
  deriving DecidableEq, Repr

/-- `InputFlags`, those with an opcode. -/
inductive InputFlag where
  | ignpar | parmrk | inpck | istrip | inlcr | igncr | icrnl | iuclc | ixon | ixany | ixoff
  | imaxbel | iutf8
  deriving DecidableEq, Repr

/-- `LocalFlags`, likewise. -/
inductive LocalFlag where
  | isig | icanon | echo | echoe | echok | echonl | noflsh | tostop | iexten | echoctl | echoke
  | pendin
  deriving DecidableEq, Repr

/-- `OutputFlags`, likewise. -/
inductive OutputFlag where
  | opost | olcuc | onlcr | ocrnl | onocr | onlret
  deriving DecidableEq, Repr

/-- `ControlFlags`, likewise. -/
inductive ControlFlag where
  | cs7 | cs8 | parenb | parodd
  deriving DecidableEq, Repr

/-- The speeds with a number. -/
inductive BaudRate where
  | b0 | b50 | b75 | b110 | b134 | b150 | b200 | b300 | b600 | b1200 | b1800 | b2400 | b4800
  | b9600 | b19200 | b38400 | b57600 | b115200 | b230400
  deriving DecidableEq, Repr

/-- The bits of a set of flags: those of each flag, and all that have a name. -/
structure FlagBits (F : Type) where
  /-- The bits of a flag. -/
  bits : F → BitVec 32
  /-- All bits that the type knows. -/
  all : BitVec 32

namespace FlagBits

variable {F : Type} (f : FlagBits F)

/-- `|=` -/
def insert (flags : BitVec 32) (flag : F) : BitVec 32 := flags ||| f.bits flag

/-- `&= !`, where the complement has bits with names only. -/
def remove (flags : BitVec 32) (flag : F) : BitVec 32 := flags &&& (~~~ f.bits flag &&& f.all)

end FlagBits

/-- The settings of a terminal with `nccs` control characters. -/
structure Termios (nccs : ℕ) where
  inputFlags : BitVec 32
  outputFlags : BitVec 32
  controlFlags : BitVec 32
  localFlags : BitVec 32
  controlChars : Fin nccs → UInt8
  inputSpeed : BitVec 32
  outputSpeed : BitVec 32

/-- What `libc` and `nix` are on a platform. -/
structure Platform where
  /-- The length of `c_cc`. -/
  nccs : ℕ
  /-- Which of them a special character is. -/
  specialCharacterIndex : SpecialCharacter → Fin nccs
  /-- The bits of `c_iflag`. -/
  inputFlag : FlagBits InputFlag
  /-- The bits of `c_lflag`. -/
  localFlag : FlagBits LocalFlag
  /-- The bits of `c_oflag`. -/
  outputFlag : FlagBits OutputFlag
  /-- The bits of `c_cflag`. -/
  controlFlag : FlagBits ControlFlag
  /-- Linux or Android. -/
  linux : Bool
  /-- How the input speed is set. -/
  cfsetispeed : BaudRate → Termios nccs → Termios nccs
  /-- How the output speed is set. -/
  cfsetospeed : BaudRate → Termios nccs → Termios nccs

/-! ## The opcodes

The tables of the source. Two opcodes exist on one platform only. -/

/-- Ends the list. -/
def ttyOpEnd : UInt8 := 0

/-- The speed of the input. -/
def ttyOpIspeed : UInt8 := 128

/-- The speed of the output. -/
def ttyOpOspeed : UInt8 := 129

/-- A speed in bits per second, if it is one. -/
def baudToSpeed (baud : UInt32) : Option BaudRate :=
  match baud.toNat with
  | 0 => some .b0
  | 50 => some .b50
  | 75 => some .b75
  | 110 => some .b110
  | 134 => some .b134
  | 150 => some .b150
  | 200 => some .b200
  | 300 => some .b300
  | 600 => some .b600
  | 1200 => some .b1200
  | 1800 => some .b1800
  | 2400 => some .b2400
  | 4800 => some .b4800
  | 9600 => some .b9600
  | 19200 => some .b19200
  | 38400 => some .b38400
  | 57600 => some .b57600
  | 115200 => some .b115200
  | 230400 => some .b230400
  | _ => none

/-- The control character of an opcode. -/
def ccIndex (opcode : UInt8) : Option SpecialCharacter :=
  match opcode.toNat with
  | 1 => some .vintr
  | 2 => some .vquit
  | 3 => some .verase
  | 4 => some .vkill
  | 5 => some .veof
  | 6 => some .veol
  | 7 => some .veol2
  | 8 => some .vstart
  | 9 => some .vstop
  | 10 => some .vsusp
  | 12 => some .vreprint
  | 13 => some .vwerase
  | 14 => some .vlnext
  | 18 => some .vdiscard
  | _ => none

/-- On Linux only. -/
def iuclcBit (linux : Bool) : Option InputFlag := if linux then some .iuclc else none

/-- The input flag of an opcode. -/
def iflagBit (linux : Bool) (opcode : UInt8) : Option InputFlag :=
  match opcode.toNat with
  | 30 => some .ignpar
  | 31 => some .parmrk
  | 32 => some .inpck
  | 33 => some .istrip
  | 34 => some .inlcr
  | 35 => some .igncr
  | 36 => some .icrnl
  | 37 => iuclcBit linux
  | 38 => some .ixon
  | 39 => some .ixany
  | 40 => some .ixoff
  | 41 => some .imaxbel
  | 42 => some .iutf8
  | _ => none

/-- The local flag of an opcode. -/
def lflagBit (opcode : UInt8) : Option LocalFlag :=
  match opcode.toNat with
  | 50 => some .isig
  | 51 => some .icanon
  | 53 => some .echo
  | 54 => some .echoe
  | 55 => some .echok
  | 56 => some .echonl
  | 57 => some .noflsh
  | 58 => some .tostop
  | 59 => some .iexten
  | 60 => some .echoctl
  | 61 => some .echoke
  | 62 => some .pendin
  | _ => none

/-- On Linux only. -/
def olcucBit (linux : Bool) : Option OutputFlag := if linux then some .olcuc else none

/-- The output flag of an opcode. -/
def oflagBit (linux : Bool) (opcode : UInt8) : Option OutputFlag :=
  match opcode.toNat with
  | 70 => some .opost
  | 71 => olcucBit linux
  | 72 => some .onlcr
  | 73 => some .ocrnl
  | 74 => some .onocr
  | 75 => some .onlret
  | _ => none

/-- The control flag of an opcode. -/
def cflagBit (opcode : UInt8) : Option ControlFlag :=
  match opcode.toNat with
  | 90 => some .cs7
  | 91 => some .cs8
  | 92 => some .parenb
  | 93 => some .parodd
  | _ => none

/-! ## Applying modes

The loop of the source with its index, and the update for one opcode. The settings are read from
the terminal before, and written to it behind the loop. -/

/-- Set or clear a flag, if there is one. -/
def setFlag {F : Type} (f : FlagBits F) (flags : BitVec 32) (flag : Option F) (value : UInt32) :
    BitVec 32 :=
  match flag with
  | some flag => if value ≠ 0 then f.insert flags flag else f.remove flags flag
  | none => flags

variable (p : Platform)

/-- What one opcode does to the settings. -/
def applyMode (opcode : UInt8) (value : UInt32) (tio : Termios p.nccs) : Termios p.nccs :=
  if opcode = ttyOpIspeed then
    match baudToSpeed value with
    | some speed => p.cfsetispeed speed tio
    | none => tio
  else if opcode = ttyOpOspeed then
    match baudToSpeed value with
    | some speed => p.cfsetospeed speed tio
    | none => tio
  else if 1 ≤ opcode ∧ opcode ≤ 18 then
    match ccIndex opcode with
    | some c =>
      { tio with
        controlChars := Function.update tio.controlChars (p.specialCharacterIndex c)
          (if value = 255 then 0 else value.toUInt8) }
    | none => tio
  else if 30 ≤ opcode ∧ opcode ≤ 42 then
    { tio with
      inputFlags := setFlag p.inputFlag tio.inputFlags (iflagBit p.linux opcode) value }
  else if 50 ≤ opcode ∧ opcode ≤ 62 then
    { tio with localFlags := setFlag p.localFlag tio.localFlags (lflagBit opcode) value }
  else if 70 ≤ opcode ∧ opcode ≤ 75 then
    { tio with
      outputFlags := setFlag p.outputFlag tio.outputFlags (oflagBit p.linux opcode) value }
  else if 90 ≤ opcode ∧ opcode ≤ 93 then
    { tio with controlFlags := setFlag p.controlFlag tio.controlFlags (cflagBit opcode) value }
  else tio

/-- `u32::from_be_bytes` -/
def fromBeBytes (b0 b1 b2 b3 : UInt8) : UInt32 :=
  .ofNat (((b0.toNat * 256 + b1.toNat) * 256 + b2.toNat) * 256 + b3.toNat)

/-- The loop, from the index `pos` and for at most `fuel` turns; `none` if these are not enough, or
for an index outside of the string. -/
def applyLoop (modes : List UInt8) : ℕ → ℕ → Termios p.nccs → Option (Termios p.nccs)
  | 0, _, _ => none
  | fuel + 1, pos, tio =>
    if pos < modes.length then do
      let opcode ← modes[pos]?
      let pos := pos + 1
      if opcode = ttyOpEnd then pure tio
      else if 160 ≤ opcode then pure tio
      else if modes.length < pos + 4 then pure tio
      else
        let b0 ← modes[pos]?
        let b1 ← modes[pos + 1]?
        let b2 ← modes[pos + 2]?
        let b3 ← modes[pos + 3]?
        applyLoop modes fuel (pos + 4) (applyMode p opcode (fromBeBytes b0 b1 b2 b3) tio)
    else pure tio

/-- `apply_terminal_modes` on a terminal with the settings `tio`: the settings it is given, or
`none` if it is left alone. Every turn of the loop takes at least one byte. -/
def applyTerminalModes (modes : List UInt8) (tio : Termios p.nccs) :
    Option (Option (Termios p.nccs)) :=
  if modes.isEmpty then some none
  else (applyLoop p modes (modes.length + 1) 0 tio).map some

/-- The settings of the terminal afterwards. -/
def settingsAfter (modes : List UInt8) (tio : Termios p.nccs) : Option (Termios p.nccs) :=
  (applyTerminalModes p modes tio).map fun set => set.getD tio

/-! ## What the string says

The same string as a list: entries of five bytes, and something that ends it. -/

/-- An opcode and its value. -/
structure ModeEntry where
  opcode : UInt8
  value : UInt32
  deriving DecidableEq, Repr

namespace ModeEntry

/-- The opcodes that take a value. -/
def Listed (e : ModeEntry) : Prop := 1 ≤ e.opcode ∧ e.opcode < 160

instance (e : ModeEntry) : Decidable e.Listed :=
  inferInstanceAs (Decidable (1 ≤ e.opcode ∧ e.opcode < 160))

/-- The opcode, and the value with its high byte first. -/
def bytes (e : ModeEntry) : List UInt8 :=
  [e.opcode, .ofNat (e.value.toNat / 2 ^ 24), .ofNat (e.value.toNat / 2 ^ 16),
    .ofNat (e.value.toNat / 2 ^ 8), .ofNat e.value.toNat]

end ModeEntry

/-- Nothing more is read: the end, an opcode that ends the list or is undefined, or an entry that is
cut off. -/
def ModesEnd : List UInt8 → Prop
  | [] => True
  | opcode :: rest => opcode = 0 ∨ 160 ≤ opcode ∨ rest.length < 4

/-- The entries in front of what ends the list. -/
def entriesOf : List UInt8 → List ModeEntry
  | opcode :: b0 :: b1 :: b2 :: b3 :: rest =>
    if opcode = 0 ∨ 160 ≤ opcode then []
    else ⟨opcode, fromBeBytes b0 b1 b2 b3⟩ :: entriesOf rest
  | _ => []

/-- One entry after the other. -/
def applyEntries (entries : List ModeEntry) (tio : Termios p.nccs) : Termios p.nccs :=
  entries.foldl (fun tio e => applyMode p e.opcode e.value tio) tio

/-- The opcodes with a name on the platform. -/
def namedOpcodes (linux : Bool) : List ℕ :=
  [1, 2, 3, 4, 5, 6, 7, 8, 9, 10, 12, 13, 14, 18] ++
    ([30, 31, 32, 33, 34, 35, 36] ++ (if linux then [37] else []) ++ [38, 39, 40, 41, 42]) ++
    [50, 51, 53, 54, 55, 56, 57, 58, 59, 60, 61, 62] ++
    ([70] ++ (if linux then [71] else []) ++ [72, 73, 74, 75]) ++
    [90, 91, 92, 93, 128, 129]

/-! ### Four bytes and their value

Any four bytes are the value of one entry, and its bytes are these. -/

/-- The first byte is the highest. -/
theorem fromBeBytes_toNat (b0 b1 b2 b3 : UInt8) :
    (fromBeBytes b0 b1 b2 b3).toNat =
      ((b0.toNat * 256 + b1.toNat) * 256 + b2.toNat) * 256 + b3.toNat := by
  have h0 := b0.toNat_lt
  have h1 := b1.toNat_lt
  have h2 := b2.toNat_lt
  have h3 := b3.toNat_lt
  unfold fromBeBytes
  rw [UInt32.toNat_ofNat']
  omega

/-- A value is read as it was written. -/
theorem fromBeBytes_bytes (v : UInt32) :
    fromBeBytes (.ofNat (v.toNat / 2 ^ 24)) (.ofNat (v.toNat / 2 ^ 16)) (.ofNat (v.toNat / 2 ^ 8))
      (.ofNat v.toNat) = v := by
  have hv := v.toNat_lt
  apply UInt32.toNat_inj.mp
  rw [fromBeBytes_toNat]
  simp only [UInt8.toNat_ofNat']
  omega

/-- Any four bytes are a value. -/
theorem ModeEntry.bytes_fromBeBytes (opcode b0 b1 b2 b3 : UInt8) :
    (ModeEntry.mk opcode (fromBeBytes b0 b1 b2 b3)).bytes = [opcode, b0, b1, b2, b3] := by
  have h0 := b0.toNat_lt
  have h1 := b1.toNat_lt
  have h2 := b2.toNat_lt
  have h3 := b3.toNat_lt
  have hbyte : ∀ (n : ℕ) (b : UInt8), n % 256 = b.toNat → UInt8.ofNat n = b := by
    intro n b h
    apply UInt8.toNat_inj.mp
    rw [UInt8.toNat_ofNat']
    exact h
  unfold ModeEntry.bytes
  simp only [fromBeBytes_toNat]
  rw [hbyte _ b0 (by omega), hbyte _ b1 (by omega), hbyte _ b2 (by omega), hbyte _ b3 (by omega)]

/-! ### The entries of a string

Every string can be read as entries and what ends them, in one way. -/

/-- Nothing is read of what ends the list. -/
theorem entriesOf_of_end {rest : List UInt8} (h : ModesEnd rest) : entriesOf rest = [] := by
  unfold entriesOf
  split
  · rename_i opcode b0 b1 b2 b3 rest
    have hend : opcode = 0 ∨ 160 ≤ opcode := by
      obtain h | h | h := h
      · exact .inl h
      · exact .inr h
      · simp only [List.length_cons] at h
        omega
    rw [if_pos hend]
  · rfl

/-- Else an entry is read. -/
theorem exists_entry {modes : List UInt8} (h : ¬ModesEnd modes) :
    ∃ opcode b0 b1 b2 b3 rest, modes = opcode :: b0 :: b1 :: b2 :: b3 :: rest ∧
      ¬(opcode = 0 ∨ 160 ≤ opcode) := by
  match modes, h with
  | [], h => exact absurd trivial h
  | opcode :: rest, h =>
    have hfour : 4 ≤ rest.length := Nat.le_of_not_lt fun hlt => h (.inr (.inr hlt))
    match rest, hfour with
    | b0 :: b1 :: b2 :: b3 :: rest, _ =>
      refine ⟨opcode, b0, b1, b2, b3, rest, rfl, ?_⟩
      rintro (hend | hundefined)
      · exact h (.inl hend)
      · exact h (.inr (.inl hundefined))

/-- An entry is read as it was written. -/
theorem entriesOf_bytes {e : ModeEntry} (he : e.Listed) (rest : List UInt8) :
    entriesOf (e.bytes ++ rest) = e :: entriesOf rest := by
  obtain ⟨hpos, hlt⟩ := he
  have hread : ¬(e.opcode = 0 ∨ 160 ≤ e.opcode) := by
    rintro (h | h)
    · rw [h] at hpos
      exact absurd hpos (by decide)
    · exact absurd hlt (UInt8.not_lt.mpr h)
  show entriesOf (e.opcode :: _ :: _ :: _ :: _ :: rest) = _
  rw [entriesOf, if_neg hread, fromBeBytes_bytes]

/-- So are several. -/
theorem entriesOf_flatMap {es : List ModeEntry} (hes : ∀ e ∈ es, e.Listed) (rest : List UInt8) :
    entriesOf (es.flatMap ModeEntry.bytes ++ rest) = es ++ entriesOf rest := by
  induction es with
  | nil => rfl
  | cons e es ih =>
    rw [List.flatMap_cons, List.append_assoc, entriesOf_bytes (hes e List.mem_cons_self),
      ih fun e' h => hes e' (List.mem_cons_of_mem e h), List.cons_append]

/-- Every string is entries and something that ends them. -/
theorem exists_entries (modes : List UInt8) :
    ∃ rest, modes = (entriesOf modes).flatMap ModeEntry.bytes ++ rest ∧
      (∀ e ∈ entriesOf modes, e.Listed) ∧ ModesEnd rest := by
  fun_induction entriesOf modes with
  | case1 opcode b0 b1 b2 b3 rest hend =>
    refine ⟨_, rfl, fun e he => absurd he List.not_mem_nil, ?_⟩
    exact hend.imp_right Or.inl
  | case2 opcode b0 b1 b2 b3 rest hread ih =>
    obtain ⟨tail, hrest, hlisted, htail⟩ := ih
    refine ⟨tail, ?_, ?_, htail⟩
    · rw [List.flatMap_cons, ModeEntry.bytes_fromBeBytes, List.append_assoc, ← hrest]
      rfl
    · intro e he
      obtain rfl | he := List.mem_cons.mp he
      · have hne : opcode ≠ 0 := fun h => hread (.inl h)
        refine ⟨?_, UInt8.not_le.mp fun h => hread (.inr h)⟩
        have : opcode.toNat ≠ 0 := fun h => hne (UInt8.toNat_inj.mp h)
        exact UInt8.le_iff_toNat_le.mpr (Nat.one_le_iff_ne_zero.mpr this)
      · exact hlisted e he
  | case3 modes hshort =>
    refine ⟨modes, rfl, fun e he => absurd he List.not_mem_nil, ?_⟩
    match modes, hshort with
    | [], _ => trivial
    | [_], _ | [_, _], _ | [_, _, _], _ | [_, _, _, _], _ =>
      exact .inr (.inr (by simp only [List.length_cons, List.length_nil]; omega))
    | a :: b :: c :: d :: e :: rest, h => exact absurd rfl (h a b c d e rest)

/-! ### The loop

By induction on what is left of the string behind the index. The loop never looks outside of it. -/

/-- What the loop finds at its index. -/
theorem getElem?_at {modes l : List UInt8} {pos : ℕ} (h : modes.drop pos = l) (k : ℕ) :
    modes[pos + k]? = l[k]? := by
  rw [← h, List.getElem?_drop]

/-- **A turn at the end.** -/
theorem applyLoop_of_end {modes : List UInt8} {pos : ℕ} (h : ModesEnd (modes.drop pos)) (fuel : ℕ)
    (tio : Termios p.nccs) : applyLoop p modes (fuel + 1) pos tio = some tio := by
  unfold applyLoop
  by_cases hpos : pos < modes.length
  · rw [if_pos hpos]
    obtain ⟨opcode, rest, hl⟩ : ∃ opcode rest, modes.drop pos = opcode :: rest :=
      ⟨_, _, List.drop_eq_getElem_cons hpos⟩
    have hlen : modes.length - pos = rest.length + 1 := by
      rw [← List.length_drop, hl, List.length_cons]
    have hop : modes[pos]? = some opcode := getElem?_at hl 0
    rw [hop]
    show (if opcode = ttyOpEnd then _ else _) = _
    rw [hl] at h
    obtain h | h | h := h
    · exact if_pos h
    · rw [if_pos h]
      exact ite_self _
    · rw [if_pos (show modes.length < pos + 1 + 4 by omega)]
      simp only [pure, ite_self]
  · rw [if_neg hpos]
    rfl

/-- **A turn at an entry.** -/
theorem applyLoop_of_entry {modes rest : List UInt8} {pos : ℕ} {opcode b0 b1 b2 b3 : UInt8}
    (hl : modes.drop pos = opcode :: b0 :: b1 :: b2 :: b3 :: rest)
    (hread : ¬(opcode = 0 ∨ 160 ≤ opcode)) (fuel : ℕ) (tio : Termios p.nccs) :
    applyLoop p modes (fuel + 1) pos tio =
      applyLoop p modes fuel (pos + 1 + 4) (applyMode p opcode (fromBeBytes b0 b1 b2 b3) tio) := by
  obtain ⟨hne, hlt⟩ := not_or.mp hread
  have hlen : modes.length - pos = rest.length + 5 := by
    rw [← List.length_drop, hl]
    rfl
  have hop : modes[pos]? = some opcode := getElem?_at hl 0
  have h0 : modes[pos + 1]? = some b0 := getElem?_at hl 1
  have h1 : modes[pos + 1 + 1]? = some b1 := getElem?_at hl 2
  have h2 : modes[pos + 1 + 2]? = some b2 := getElem?_at hl 3
  have h3 : modes[pos + 1 + 3]? = some b3 := getElem?_at hl 4
  rw [applyLoop, if_pos (show pos < modes.length by omega), hop]
  show (if opcode = ttyOpEnd then _ else _) = _
  rw [if_neg (show opcode ≠ ttyOpEnd from hne), if_neg hlt,
    if_neg (show ¬modes.length < pos + 1 + 4 by omega), h0, h1, h2, h3]
  rfl

/-- From any index, the loop ends and applies the entries of what is left of the string. -/
theorem applyLoop_eq (modes : List UInt8) (fuel : ℕ) :
    ∀ pos, modes.length - pos < fuel → ∀ tio,
      applyLoop p modes fuel pos tio = some (applyEntries p (entriesOf (modes.drop pos)) tio) := by
  induction fuel with
  | zero =>
    intro pos h
    omega
  | succ fuel ih =>
    intro pos hfuel tio
    by_cases hend : ModesEnd (modes.drop pos)
    · rw [applyLoop_of_end p hend, entriesOf_of_end hend]
      rfl
    · obtain ⟨opcode, b0, b1, b2, b3, rest, hl, hread⟩ := exists_entry hend
      have hlen : modes.length - pos = rest.length + 5 := by
        rw [← List.length_drop, hl]
        rfl
      have hdrop : modes.drop (pos + 1 + 4) = rest := by
        rw [Nat.add_assoc, ← List.drop_drop, hl]
        rfl
      rw [applyLoop_of_entry p hl hread, ih (pos + 1 + 4) (by omega), hdrop, hl, entriesOf,
        if_neg hread]
      rfl

/-- Nothing goes wrong, and the entries are applied. -/
theorem applyTerminalModes_eq (modes : List UInt8) (tio : Termios p.nccs) :
    applyTerminalModes p modes tio =
      some (if modes.isEmpty then none else some (applyEntries p (entriesOf modes) tio)) := by
  unfold applyTerminalModes
  split
  · rfl
  · rw [applyLoop_eq p modes (modes.length + 1) 0 (by omega) tio, List.drop_zero, Option.map_some]

/-- An empty string leaves the terminal alone, which is what no entries do. -/
theorem settingsAfter_eq (modes : List UInt8) (tio : Termios p.nccs) :
    settingsAfter p modes tio = some (applyEntries p (entriesOf modes) tio) := by
  unfold settingsAfter
  rw [applyTerminalModes_eq]
  match modes with
  | [] => rfl
  | _ :: _ => rfl

/-! ### Unknown opcodes

An opcode without a name is in none of the tables, which is a check of 256 cases, and so its
entry does nothing. -/

/-- There are 256 opcodes to look at. -/
theorem eq_none_of_unnamed {α : Type} {linux : Bool} {f : UInt8 → Option α}
    (hnamed : ∀ n < 256, (f (UInt8.ofNat n)).isSome = true → n ∈ namedOpcodes linux)
    {opcode : UInt8} (h : opcode.toNat ∉ namedOpcodes linux) : f opcode = none := by
  refine Option.not_isSome_iff_eq_none.mp fun hsome => h (hnamed _ opcode.toNat_lt ?_)
  rwa [UInt8.ofNat_toNat]

/-- An opcode without a name is no control character, … -/
theorem ccIndex_eq_none {linux : Bool} {opcode : UInt8} (h : opcode.toNat ∉ namedOpcodes linux) :
    ccIndex opcode = none :=
  eq_none_of_unnamed (by cases linux <;> decide +kernel) h

/-- … no input flag, … -/
theorem iflagBit_eq_none {linux : Bool} {opcode : UInt8} (h : opcode.toNat ∉ namedOpcodes linux) :
    iflagBit linux opcode = none :=
  eq_none_of_unnamed (by cases linux <;> decide +kernel) h

/-- … no local flag, … -/
theorem lflagBit_eq_none {linux : Bool} {opcode : UInt8} (h : opcode.toNat ∉ namedOpcodes linux) :
    lflagBit opcode = none :=
  eq_none_of_unnamed (by cases linux <;> decide +kernel) h

/-- … no output flag, … -/
theorem oflagBit_eq_none {linux : Bool} {opcode : UInt8} (h : opcode.toNat ∉ namedOpcodes linux) :
    oflagBit linux opcode = none :=
  eq_none_of_unnamed (by cases linux <;> decide +kernel) h

/-- … and no control flag. -/
theorem cflagBit_eq_none {linux : Bool} {opcode : UInt8} (h : opcode.toNat ∉ namedOpcodes linux) :
    cflagBit opcode = none :=
  eq_none_of_unnamed (by cases linux <;> decide +kernel) h

/-- So it does nothing. -/
theorem applyMode_of_unnamed {opcode : UInt8} (h : opcode.toNat ∉ namedOpcodes p.linux)
    (value : UInt32) (tio : Termios p.nccs) : applyMode p opcode value tio = tio := by
  have hin : opcode ≠ ttyOpIspeed := by
    rintro rfl
    exact h (by simp [namedOpcodes, ttyOpIspeed])
  have hout : opcode ≠ ttyOpOspeed := by
    rintro rfl
    exact h (by simp [namedOpcodes, ttyOpOspeed])
  unfold applyMode
  rw [if_neg hin, if_neg hout, ccIndex_eq_none h, iflagBit_eq_none h, lflagBit_eq_none h,
    oflagBit_eq_none h, cflagBit_eq_none h]
  simp only [setFlag, ite_self]

/-- An entry with an unknown opcode leaves the settings, and what the other entries do. -/
theorem applyEntries_of_unnamed {e : ModeEntry} (h : e.opcode.toNat ∉ namedOpcodes p.linux)
    (es es' : List ModeEntry) (tio : Termios p.nccs) :
    applyEntries p (es ++ e :: es') tio = applyEntries p (es ++ es') tio := by
  unfold applyEntries
  rw [List.foldl_append, List.foldl_cons, applyMode_of_unnamed p h, List.foldl_append]

/-! ## What is applied

The string as a whole. -/

/-- Every string is a list of entries and what ends it; for any such reading, the loop stays inside
of the string and applies those entries in order. Nothing behind the end matters, and an entry with
an unknown opcode can as well be left out. -/
theorem applyModes_as_sent :
    (∀ modes : List UInt8, ∃ (es : List ModeEntry) (rest : List UInt8),
      modes = es.flatMap ModeEntry.bytes ++ rest ∧
      (∀ e ∈ es, e.Listed) ∧ ModesEnd rest) ∧
    (∀ (es : List ModeEntry) (rest : List UInt8), (∀ e ∈ es, e.Listed) → ModesEnd rest →
      ∀ tio, settingsAfter p (es.flatMap ModeEntry.bytes ++ rest) tio =
        some (applyEntries p es tio)) ∧
    (∀ es : List ModeEntry, (∀ e ∈ es, e.Listed) → ∀ tail tio,
      settingsAfter p (es.flatMap ModeEntry.bytes ++ 0 :: tail) tio =
        some (applyEntries p es tio)) ∧
    (∀ (es : List ModeEntry) (e : ModeEntry) (es' : List ModeEntry),
      (∀ e' ∈ es ++ e :: es', e'.Listed) → e.opcode.toNat ∉ namedOpcodes p.linux → ∀ tail tio,
      settingsAfter p ((es ++ e :: es').flatMap ModeEntry.bytes ++ 0 :: tail) tio =
        some (applyEntries p (es ++ es') tio)) := by
  have hread : ∀ (es : List ModeEntry) (rest : List UInt8), (∀ e ∈ es, e.Listed) → ModesEnd rest →
      ∀ tio, settingsAfter p (es.flatMap ModeEntry.bytes ++ rest) tio =
        some (applyEntries p es tio) := by
    intro es rest hes hrest tio
    rw [settingsAfter_eq, entriesOf_flatMap hes, entriesOf_of_end hrest, List.append_nil]
  have hzero : ∀ tail, ModesEnd (0 :: tail) := fun tail => .inl rfl
  refine ⟨?_, hread, ?_, ?_⟩
  · intro modes
    obtain ⟨rest, h⟩ := exists_entries modes
    exact ⟨entriesOf modes, rest, h⟩
  · intro es hes tail tio
    exact hread es _ hes (hzero tail) tio
  · intro es e es' hes hunnamed tail tio
    rw [hread _ _ hes (hzero tail), applyEntries_of_unnamed p hunnamed]

-- ECHO off, an opcode without a name, VINTR, and something behind the end
example : entriesOf [53, 0, 0, 0, 0, 100, 1, 2, 3, 4, 1, 0, 0, 0, 3, 0, 7] =
    [⟨53, 0⟩, ⟨100, 16909060⟩, ⟨1, 3⟩] := by decide

end Dssh
