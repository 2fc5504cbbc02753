import Mathlib.Data.List.Basic

/-!
# Decoders of byte streams

A decoder reads a value off the front of a list of bytes and returns the bytes that are left, or
fails.  It reads the value `a` from the bytes `bs` (`Reads`) if it returns `a` and leaves exactly
what follows `bs`, and fails if `bs` is cut off anywhere.  Decoders that read one after the other
read the concatenation (`Reads.bind`), so encodings that are read are self-delimiting.

A filler reads one value after the other and stores them in a record, which keeps what is stored in
it when a later value cannot be read.  It does to the record what a decoder of the record says
(`Follows`).
-/

namespace Decoder

/-- The end of the stream, before or in the middle of what is read, a number that is too large, and
the errors of the format. -/
inductive Error (ε : Type) where
  | eof
  | unexpectedEOF
  | overflow
  | format (e : ε)
deriving DecidableEq

end Decoder

/-- Reads a value off the front of a list of bytes. -/
abbrev Decoder (ε α : Type) : Type := StateT (List UInt8) (Except (Decoder.Error ε)) α

namespace Decoder

variable {ε α β : Type}

/-- Reads a byte, or fails with the given error. -/
def readByte (e : Error ε) : Decoder ε UInt8 := fun
  | [] => .error e
  | b :: bs => .ok (b, bs)

/-- Reads `n` bytes. -/
def readFull (n : ℕ) : Decoder ε (List UInt8) := fun bs =>
  if n ≤ bs.length then .ok (bs.take n, bs.drop n)
  else if bs = [] then .error .eof
  else .error .unexpectedEOF

/-- The decoder returns `a` and leaves what follows `bs`, and fails if `bs` is cut off. -/
structure Reads (d : Decoder ε α) (bs : List UInt8) (a : α) : Prop where
  whole : ∀ rest, d.run (bs ++ rest) = .ok (a, rest)
  cut : ∀ k < bs.length, ∃ e, d.run (bs.take k) = .error e

variable {d : Decoder ε α} {f : α → Decoder ε β} {bs bs' : List UInt8} {a : α} {b : β}

/-- A decoder that is followed by another has returned. -/
theorem run_bind_eq_ok {rest : List UInt8} (h : (d >>= f).run bs = .ok (b, rest)) :
  ∃ a bs', d.run bs = .ok (a, bs') ∧ (f a).run bs' = .ok (b, rest)
  := by
  rw [StateT.run_bind] at h
  cases hd : d.run bs with
  | error e =>
    rw [hd] at h
    cases h
  | ok p =>
    rw [hd] at h
    exact ⟨p.1, p.2, rfl, h⟩

theorem Reads.pure (a : α) :
  Reads (pure a : Decoder ε α) [] a
  := by
  constructor
  · intro rest
    rfl
  · simp

/-- What is computed without reading. -/
theorem Reads.lift {x : Except (Error ε) α} (hx : x = .ok a) :
  Reads (liftM x : Decoder ε α) [] a
  := by
  subst hx
  apply Reads.pure

/-- One decoder after the other. -/
theorem Reads.bind (hd : Reads d bs a) (hf : Reads (f a) bs' b) :
  Reads (d >>= f) (bs ++ bs') b
  := by
  constructor
  · intro rest
    rw [StateT.run_bind, List.append_assoc, hd.whole]
    apply hf.whole
  · intro k hk
    rw [List.length_append] at hk
    rw [StateT.run_bind]
    rcases Nat.lt_or_ge k bs.length with hlt | hge
    · obtain ⟨e, he⟩ := hd.cut k hlt
      use e
      rw [List.take_append_of_le_length (Nat.le_of_lt hlt), he]
      rfl
    · have hk' : k - bs.length < bs'.length := by omega
      obtain ⟨e, he⟩ := hf.cut (k - bs.length) hk'
      use e
      rw [List.take_append, List.take_of_length_le hge, hd.whole]
      exact he

theorem readByte_reads (e : Error ε) (c : UInt8) :
  Reads (readByte e) [c] c
  := by
  constructor
  · intro rest
    rfl
  · intro k hk
    obtain rfl : k = 0 := by simpa using hk
    exact ⟨e, rfl⟩

/-- One byte and then what follows. -/
theorem Reads.cons {f : UInt8 → Decoder ε β} {c : UInt8} (e : Error ε) (hf : Reads (f c) bs b) :
  Reads (readByte e >>= f) (c :: bs) b
  := (readByte_reads e c).bind hf

theorem length_of_readFull {n : ℕ} {bs a rest : List UInt8}
    (h : (readFull n : Decoder ε (List UInt8)).run bs = .ok (a, rest)) :
  rest.length + n = bs.length
  := by
  rw [StateT.run, readFull] at h
  split_ifs at h with hn
  cases h
  rw [List.length_drop]
  omega

theorem readFull_reads (bs : List UInt8) :
  Reads (readFull bs.length : Decoder ε (List UInt8)) bs bs
  := by
  constructor
  · intro rest
    rw [StateT.run, readFull, if_pos (by simp), List.take_left', List.drop_left'] <;> rfl
  · intro k hk
    have hlength : ¬ bs.length ≤ (bs.take k).length := by
      rw [List.length_take]
      omega
    rw [StateT.run, readFull, if_neg hlength]
    split
    · exact ⟨_, rfl⟩
    · exact ⟨_, rfl⟩

/-! ### Filling -/

variable {ρ ρ₀ : Type}

/-- Reads values off the front of a list of bytes and stores them in a record. -/
abbrev Filler (ε ρ α : Type) : Type := EStateM (Error ε) (List UInt8 × ρ) α

/-- Reads a value and stores it. -/
def fill (d : Decoder ε α) (set : α → ρ → ρ) : Filler ε ρ Unit := fun (bs, o) =>
  match d.run bs with
  | .error e => .error e (bs, o)
  | .ok (a, rest) => .ok () (rest, set a o)

/-- Reads a value and stores it; if there is none, then the zero value is stored. -/
def assign (d : Decoder ε α) (zero : α) (set : α → ρ → ρ) : Filler ε ρ Unit := fun (bs, o) =>
  match d.run bs with
  | .error e => .error e (bs, set zero o)
  | .ok (a, rest) => .ok () (rest, set a o)

/-- The error of a filler, if there is one, and the record. -/
def unmarshal (f : Filler ε ρ Unit) (data : List UInt8) (out : ρ) : Option (Error ε) × ρ :=
  match f (data, out) with
  | .error e (_, o) => (some e, o)
  | .ok () (_, o) => (none, o)

/-- The filler fails with the decoder.  If the decoder returns `b`, then the filler takes the record
`pre o` to `post b o`, and leaves what the decoder leaves. -/
def Follows (f : Filler ε ρ Unit) (d : Decoder ε β) (pre : ρ₀ → ρ) (post : β → ρ₀ → ρ) : Prop :=
  ∀ bs o, (∃ e s, d.run bs = .error e ∧ f (bs, pre o) = .error e s)
    ∨ ∃ b rest, d.run bs = .ok (b, rest) ∧ f (bs, pre o) = .ok () (rest, post b o)

section

variable {g : Filler ε ρ Unit} {pre : ρ₀ → ρ} {post : β → ρ₀ → ρ} {set : α → ρ → ρ}

theorem Follows.pure (h : ∀ o, pre o = post b o) :
  Follows (pure () : Filler ε ρ Unit) (pure b) pre post
  := by
  intro bs o
  right
  use b, bs, rfl
  rw [← h]
  rfl

/-- One filler after the other. -/
theorem Follows.bind {f₀ : Filler ε ρ Unit} {mid : α → ρ₀ → ρ} (h₀ : Follows f₀ d pre mid)
    (h : ∀ a, Follows g (f a) (mid a) post) :
  Follows (do f₀; g) (d >>= f) pre post
  := by
  intro bs o
  rw [StateT.run_bind]
  obtain ⟨e, s, hd, hf₀⟩ | ⟨a, rest, hd, hf₀⟩ := h₀ bs o
  · left
    rw [hd]
    use e, s, rfl
    change EStateM.bind f₀ (fun _ => g) (bs, pre o) = _
    rw [EStateM.bind, hf₀]
  · have hbind : (do f₀; g : Filler ε ρ Unit) (bs, pre o) = g (rest, mid a o) := by
      change EStateM.bind f₀ (fun _ => g) (bs, pre o) = _
      rw [EStateM.bind, hf₀]
    rw [hd, hbind]
    apply h a rest o

/-- A value that is read and stored first. -/
theorem Follows.fill (h : ∀ a, Follows g (f a) (fun o => set a (pre o)) post) :
  Follows (do Decoder.fill d set; g) (d >>= f) pre post
  := by
  refine Follows.bind ?_ h
  intro bs o
  simp only [Decoder.fill]
  cases d.run bs with
  | error e => exact Or.inl ⟨e, _, rfl, rfl⟩
  | ok p => exact Or.inr ⟨p.1, p.2, rfl, rfl⟩

/-- A value that is read and assigned first. -/
theorem Follows.assign {zero : α} (h : ∀ a, Follows g (f a) (fun o => set a (pre o)) post) :
  Follows (do Decoder.assign d zero set; g) (d >>= f) pre post
  := by
  refine Follows.bind ?_ h
  intro bs o
  simp only [Decoder.assign]
  cases d.run bs with
  | error e => exact Or.inl ⟨e, _, rfl, rfl⟩
  | ok p => exact Or.inr ⟨p.1, p.2, rfl, rfl⟩

/-- A filler that follows a decoder fills the record with what the decoder reads. -/
theorem Follows.unmarshal_append {f : Filler ε ρ Unit} {d : Decoder ε β} {post : β → ρ → ρ}
    (h : Follows f d id post) (hd : Reads d bs b) (rest : List UInt8) (out : ρ) :
  unmarshal f (bs ++ rest) out = (none, post b out)
  := by
  obtain ⟨e, s, herror, -⟩ | ⟨b', rest', hok, hf⟩ := h (bs ++ rest) out
  · rw [hd.whole] at herror
    cases herror
  · rw [hd.whole] at hok
    cases hok
    rw [unmarshal]
    change f (bs ++ rest, out) = _ at hf
    rw [hf]

theorem Follows.unmarshal_take {f : Filler ε ρ Unit} {d : Decoder ε β} {post : β → ρ → ρ}
    (h : Follows f d id post) (hd : Reads d bs b) {k : ℕ} (hk : k < bs.length) (out : ρ) :
  ∃ e, (unmarshal f (bs.take k) out).1 = some e
  := by
  obtain ⟨e, hcut⟩ := hd.cut k hk
  obtain ⟨e', s, -, hf⟩ | ⟨b', rest', hok, -⟩ := h (bs.take k) out
  · use e'
    rw [unmarshal]
    change f (bs.take k, out) = _ at hf
    rw [hf]
  · rw [hcut] at hok
    cases hok

end

/-- The bytes fill every record, no beginning of them does, and what follows them is ignored. -/
structure SelfDelimiting (f : Filler ε ρ Unit) (bs : List UInt8) : Prop where
  accepted : ∀ out, (unmarshal f bs out).1 = none
  cut : ∀ start, start <+: bs → start ≠ bs → ∀ out, ∃ e, (unmarshal f start out).1 = some e
  followed : ∀ rest out, unmarshal f (bs ++ rest) out = unmarshal f bs out

/-- A filler that follows a decoder is self-delimiting on what the decoder reads. -/
theorem Follows.selfDelimiting {f : Filler ε ρ Unit} {d : Decoder ε β} {post : β → ρ → ρ}
    (h : Follows f d id post) (hd : Reads d bs b) :
  SelfDelimiting f bs
  := by
  have hwhole : ∀ out, unmarshal f bs out = (none, post b out) := by
    intro out
    have happend := h.unmarshal_append hd [] out
    rwa [List.append_nil] at happend
  constructor
  · intro out
    rw [hwhole]
  · intro start hstart hne out
    obtain ⟨rest, rfl⟩ := hstart
    have hk : start.length < (start ++ rest).length := by
      rw [List.length_append]
      apply Nat.lt_add_of_pos_right
      apply List.length_pos_of_ne_nil
      rintro rfl
      exact hne (List.append_nil start).symm
    have htake := h.unmarshal_take hd hk out
    rwa [List.take_left' rfl] at htake
  · intro rest out
    rw [hwhole, h.unmarshal_append hd]

end Decoder
