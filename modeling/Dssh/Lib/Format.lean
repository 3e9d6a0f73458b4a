import Dssh.Lib.Decoder

/-!
# Encoders and their decoders

`d.Inverts P enc` says that `d` is a decoder for what `enc` writes: it reads the encoding of
every value with `P` back, and every value it accepts from any bytes has `P`. The encoding need
not be the only one of a value, so a decoder may accept bytes that `enc` never writes.

A record is decoded field by field. `Inverts.bind` takes off one field and leaves the decoder of
the others with `P` narrowed to the records that have the value just read in that field;
`Inverts.done` closes the chain. So the rule asks for the facts that make a pair of hand-written
functions agree: the same fields, in the same order, each with a decoder that inverts its
encoder.

## Why the predicate

Encoders are total here and decoders have limits: a length that a decoder refuses can be
written. `P` says which values are small enough. The second half of the definition, that only
such values are accepted, is what makes a value that *has been decoded* fit to be passed on.
Without it, `roundTrip` would need the limit as a hypothesis.

## Main results

* `Inverts.bind`, `Inverts.done` — the record rules
* `Inverts.skip` — a field that is written and not looked at
* `Inverts.roundTrip` — what is decoded, encoded and decoded again is the same
-/

namespace Decoder

variable {ε ε' α β : Type}

/-- `d` reads back what `enc` writes for the values with `P`, and accepts no other values. -/
structure Inverts (d : Decoder ε α) (P : α → Prop) (enc : α → List UInt8) : Prop where
  /-- What is written is read back. -/
  accepts : ∀ {a}, P a → d.Accepts (enc a) a
  /-- Nothing else is read. -/
  of_accepts : ∀ {bs a}, d.Accepts bs a → P a

namespace Inverts

/-- The end of a record: no bytes are left to read, and the fields read determine the record. -/
theorem done {P : β → Prop} {b : β} (hP : P b) (h : ∀ b', P b' → b' = b) :
    (Decoder.done b : Decoder ε β).Inverts P fun _ => [] where
  accepts hb := by rw [h _ hb]; rfl
  of_accepts {bs b'} hacc := by
    obtain rfl := Halted.eq_nil (halted_done b) hacc
    obtain rfl := Decoder.done.inj (Option.some.inj hacc)
    exact hP

/-- **One field of a record.** -/
theorem bind {d : Decoder ε α} {f : α → Decoder ε β} {Q : α → Prop} {enc : α → List UInt8}
    {P : β → Prop} {rest : β → List UInt8} (field : β → α) (hd : d.Inverts Q enc)
    (hfield : ∀ b, P b → Q (field b))
    (hf : ∀ a, Q a → (f a).Inverts (fun b => P b ∧ field b = a) rest) :
    (d.bind f).Inverts P fun b => enc (field b) ++ rest b where
  accepts {b} hb :=
    (hd.accepts (hfield b hb)).bind ((hf _ (hfield b hb)).accepts ⟨hb, rfl⟩)
  of_accepts hacc := by
    obtain ⟨xs, ys, a, -, hx, hy⟩ := hacc.of_bind
    exact ((hf a (hd.of_accepts hx)).of_accepts hy).1

/-- A field that is written with a fixed value and skipped, whatever it is, on reading. -/
theorem skip {d : Decoder ε α} {r : Decoder ε β} {Q : α → Prop} {enc : α → List UInt8}
    {P : β → Prop} {rest : β → List UInt8} (fixed : α) (hd : d.Inverts Q enc) (hfixed : Q fixed)
    (hr : r.Inverts P rest) : (d.bind fun _ => r).Inverts P fun b => enc fixed ++ rest b where
  accepts hb := (hd.accepts hfixed).bind (hr.accepts hb)
  of_accepts hacc := by
    obtain ⟨xs, ys, a, -, -, hy⟩ := hacc.of_bind
    exact hr.of_accepts hy

/-- An error context changes nothing. -/
theorem mapError {d : Decoder ε α} {P : α → Prop} {enc : α → List UInt8} (hd : d.Inverts P enc)
    (f : ε → ε') : (d.mapError f).Inverts P enc where
  accepts hb := accepts_mapError.mpr (hd.accepts hb)
  of_accepts hacc := hd.of_accepts (accepts_mapError.mp hacc)

/-- **There and back again.** What has been decoded, from whatever bytes, survives being encoded and
decoded. -/
theorem roundTrip {d : Decoder ε α} {P : α → Prop} {enc : α → List UInt8} (hd : d.Inverts P enc)
    {bs rest : List UInt8} {a : α} (h : d.run bs = .ok (a, rest)) :
    P a ∧ d.run (enc a ++ rest) = .ok (a, rest) := by
  obtain ⟨xs, -, hacc⟩ := run_eq_ok.mp h
  have ha : P a := hd.of_accepts hacc
  exact ⟨ha, (hd.accepts ha).run rest⟩

end Inverts

end Decoder
