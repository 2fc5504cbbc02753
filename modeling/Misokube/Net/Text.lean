import Misokube.Net.Cidr

/-!
# Addresses as texts

The texts that Go's package `net` writes for addresses, networks and hardware addresses, and what it
reads from a text.  An address in dotted form is read back in its 16-byte form, a network as the
masked network, and a hardware address of 6, 8 or 20 bytes as it is (`parseIP_ipString`,
`parseCIDR_ipNetString`, `parseMAC_macString`).  Characters that are not ASCII are refused wherever
they stand, so that texts may be read character by character.
-/

namespace Net

/-! ### Digits -/

def decimalDigit (c : Char) : Option ℕ :=
  if '0' ≤ c ∧ c ≤ '9' then some (c.toNat - '0'.toNat) else none

def hexDigit (c : Char) : Option ℕ :=
  if '0' ≤ c ∧ c ≤ '9' then some (c.toNat - '0'.toNat)
  else if 'a' ≤ c ∧ c ≤ 'f' then some (c.toNat - 'a'.toNat + 10)
  else if 'A' ≤ c ∧ c ≤ 'F' then some (c.toNat - 'A'.toNat + 10)
  else none

theorem decimalDigit_digitChar :
  ∀ d < 10, decimalDigit (Nat.digitChar d) = some d
  := by decide

theorem hexDigit_digitChar :
  ∀ d < 16, hexDigit (Nat.digitChar d) = some d
  := by decide

/-! ### Writing -/

/-- The numeral of a byte. -/
def appendDecimal (x : UInt8) : List Char :=
  (if 100 ≤ x.toNat then [Nat.digitChar (x.toNat / 100)] else [])
    ++ (if 10 ≤ x.toNat then [Nat.digitChar (x.toNat / 10 % 10)] else [])
    ++ [Nat.digitChar (x.toNat % 10)]

/-- The two digits of a byte. -/
def appendHex (x : UInt8) : List Char :=
  [Nat.digitChar (x.toNat / 16), Nat.digitChar (x.toNat % 16)]

/-- The texts one after the other with a separator between them. -/
def join (sep : Char) : List (List Char) → List Char
  | [] => []
  | [s] => s
  | s :: t :: rest => s ++ sep :: join sep (t :: rest)

/-- The numbers of the pairs of bytes. -/
def words : IP → List ℕ
  | hi :: lo :: rest => (hi.toNat * 256 + lo.toNat) :: words rest
  | _ => []

/-- The end of the run of zeros from a position on. -/
def zerosEnd (groups : List ℕ) (i : ℕ) : ℕ :=
  i + ((groups.drop i).takeWhile (· = 0)).length

/-- The first of the longest runs of two or more zeros. -/
def zeroRun (groups : List ℕ) : Option (ℕ × ℕ) :=
  (List.range groups.length).foldl
    (fun best i =>
      let len := zerosEnd groups i - i
      if 2 ≤ len ∧ (∀ b ∈ best, b.2 - b.1 < len) then some (i, zerosEnd groups i) else best)
    none

/-- An IPv6 address, the longest run of zeros left out. -/
def ipv6Chars (ip : IP) : List Char :=
  let groups := words ip
  let texts := groups.map (Nat.toDigits 16)
  match zeroRun groups with
  | none => join ':' texts
  | some (zeroStart, zeroEnd) =>
    join ':' (texts.take zeroStart) ++ [':', ':'] ++ join ':' (texts.drop zeroEnd)

def ipv4Chars (ip : IP) : List Char :=
  join '.' (ip.map appendDecimal)

/-- `IP.String`. -/
def ipString (ip : IP) : String :=
  if ip = [] then "<nil>"
  else if ip.length ≠ 4 ∧ ip.length ≠ 16 then "?" ++ String.ofList (ip.flatMap appendHex)
  else if (to4 ip).length = 4 then String.ofList (ipv4Chars (to4 ip))
  else String.ofList (ipv6Chars ip)

/-- `IPNet.String`. -/
def ipNetString (n : IPNet) : String :=
  let (nn, m) := networkNumberAndMask n
  if nn = [] ∨ m = [] then "<nil>"
  else
    match simpleMaskLength m with
    | none => ipString nn ++ "/" ++ String.ofList (m.flatMap appendHex)
    | some l => ipString nn ++ "/" ++ String.ofList (Nat.toDigits 10 l)

/-- `HardwareAddr.String`. -/
def macString (mac : List UInt8) : String :=
  String.ofList (join ':' (mac.map appendHex))

/-! ### Reading -/

/-- `parseIPv4Fields`, with the fields that are complete, and the value and the number of digits of
the one that is read.  A dot follows a digit and is not the last character. -/
def parseIPv4Fields (fields : List UInt8) (val digLen : ℕ) : List Char → Option IP
  | [] => if fields.length < 3 then none else some (fields ++ [UInt8.ofNat val])
  | c :: rest =>
    match decimalDigit c with
    | some d =>
      if digLen = 1 ∧ val = 0 then none
      else if 255 < val * 10 + d then none
      else parseIPv4Fields fields (val * 10 + d) (digLen + 1) rest
    | none =>
      if c ≠ '.' then none
      else if digLen = 0 ∨ rest = [] then none
      else if fields.length = 3 then none
      else parseIPv4Fields (fields ++ [UInt8.ofNat val]) 0 0 rest

/-- Reads hexadecimal digits, at most four: the number, how many there are, and the rest. -/
def readGroup (acc off : ℕ) : List Char → Option (ℕ × ℕ × List Char)
  | [] => some (acc, off, [])
  | c :: rest =>
    match hexDigit c with
    | none => some (acc, off, c :: rest)
    | some d => if 3 < off then none else readGroup (acc * 16 + d) (off + 1) rest

/-- The groups of an IPv6 address, as many as there is room for: the bytes, the place of the
ellipsis and what was not read. -/
def parseGroups : ℕ → IP → Option ℕ → List Char → Option (IP × Option ℕ × List Char)
  | 0, ip, ellipsis, s => some (ip, ellipsis, s)
  | room + 1, ip, ellipsis, s =>
    match readGroup 0 0 s with
    | none => none
    | some (acc, off, rest) =>
      if off = 0 then none
      else if rest.head? = some '.' then
        -- the last four bytes may be written as an IPv4 address
        if ellipsis = none ∧ ip.length ≠ 12 then none
        else if 16 < ip.length + 4 then none
        else (parseIPv4Fields [] 0 0 s).map fun v4 => (ip ++ v4, ellipsis, [])
      else
        let ip := ip ++ [UInt8.ofNat (acc / 256), UInt8.ofNat acc]
        match rest with
        | [] => some (ip, ellipsis, [])
        | c :: rest =>
          if c ≠ ':' ∨ rest = [] then none
          else if rest.head? ≠ some ':' then parseGroups room ip ellipsis rest
          else if ellipsis.isSome then none
          else if rest.tail = [] then some (ip, some ip.length, [])
          else parseGroups room ip (some ip.length) rest.tail

/-- The zeros the ellipsis stands for. -/
def expandEllipsis (ip : IP) : Option ℕ → Option IP
  | none => if ip.length < 16 then none else some ip
  | some e =>
    if ip.length < 16 then some (ip.take e ++ List.replicate (16 - ip.length) 0 ++ ip.drop e)
    else none

/-- The groups, and the zeros that are left out. -/
def readIPv6 (ellipsis : Option ℕ) (s : List Char) : Option IP :=
  match parseGroups 8 [] ellipsis s with
  | none => none
  | some (ip, ellipsis, rest) => if rest ≠ [] then none else expandEllipsis ip ellipsis

/-- What follows an ellipsis at the beginning. -/
def leadingEllipsis : List Char → Option (List Char)
  | ':' :: ':' :: rest => some rest
  | _ => none

/-- `parseIPv6`; an address with a zone is refused by those that call it. -/
def parseIPv6 (s : List Char) : Option IP :=
  if '%' ∈ s then none
  else
    match leadingEllipsis s with
    | none => readIPv6 none s
    | some rest =>
      if rest = [] then some (List.replicate 16 0) else readIPv6 (some 0) rest

/-- `netip.ParseAddr`: the number of bits of the address, and its 16-byte form. -/
def parseAddr (s : List Char) : Option (ℕ × IP) :=
  match s.find? fun c => c = '.' ∨ c = ':' ∨ c = '%' with
  | none => none
  | some c =>
    if c = '.' then (parseIPv4Fields [] 0 0 s).map fun ip => (32, v4InV6Prefix ++ ip)
    else if c = ':' then (parseIPv6 s).map fun ip => (128, ip)
    else none

/-- `ParseIP`. -/
def parseIP (s : String) : Option IP :=
  (parseAddr s.toList).map Prod.snd

/-- The texts before and after the first separator. -/
def cut (sep : Char) : List Char → Option (List Char × List Char)
  | [] => none
  | c :: rest =>
    if c = sep then some ([], rest) else (cut sep rest).map fun r => (c :: r.1, r.2)

/-- `dtoi`: the number of a text, if it has digits only and is not too large. -/
def dtoi (n : ℕ) : List Char → Option ℕ
  | [] => some n
  | c :: rest =>
    match decimalDigit c with
    | none => none
    | some d => if 0xFFFFFF ≤ n * 10 + d then none else dtoi (n * 10 + d) rest

/-- `ParseCIDR`: the network. -/
def parseCIDR (s : String) : Option IPNet :=
  match cut '/' s.toList with
  | none => none
  | some (addr, mask) =>
    match parseAddr addr with
    | none => none
    | some (bits, ip) =>
      if mask = [] then none
      else
        match dtoi 0 mask with
        | none => none
        | some n => if bits < n then none else some ⟨maskIP ip (cidrMask n bits), cidrMask n bits⟩

/-- `xtoi2`: two hexadecimal digits, which the character follows if any does. -/
def xtoi2 (e : Char) : List Char → Option UInt8
  | hi :: lo :: rest =>
    if rest ≠ [] ∧ rest.head? ≠ some e then none
    else
      match hexDigit hi, hexDigit lo with
      | some h, some l => some (UInt8.ofNat (h * 16 + l))
      | _, _ => none
  | _ => none

/-- Bytes with a separator between them. -/
def parseBytes (sep : Char) : ℕ → List Char → Option (List UInt8)
  | 0, _ => some []
  | n + 1, s =>
    match xtoi2 sep s with
    | none => none
    | some b => (parseBytes sep n (s.drop 3)).map (b :: ·)

/-- Pairs of bytes with a separator between the pairs. -/
def parsePairs (sep : Char) : ℕ → List Char → Option (List UInt8)
  | 0, _ => some []
  | n + 1, s =>
    match xtoi2 sep (s.take 2), xtoi2 sep (s.drop 2) with
    | some a, some b => (parsePairs sep n (s.drop 5)).map fun bs => a :: b :: bs
    | _, _ => none

/-- `ParseMAC`. -/
def parseMAC (s : String) : Option (List UInt8) :=
  let s := s.toList
  if s.length < 14 then none
  else if s[2]? = some ':' ∨ s[2]? = some '-' then
    let n := (s.length + 1) / 3
    if (s.length + 1) % 3 ≠ 0 ∨ (n ≠ 6 ∧ n ≠ 8 ∧ n ≠ 20) then none
    else parseBytes (s[2]?.getD ':') n s
  else if s[4]? = some '.' then
    let n := 2 * (s.length + 1) / 5
    if (s.length + 1) % 5 ≠ 0 ∨ (n ≠ 6 ∧ n ≠ 8 ∧ n ≠ 20) then none
    else parsePairs '.' (n / 2) s
  else none

/-! ### Lengths -/

/-- A dotted address that is accepted has four fields. -/
theorem length_parseIPv4Fields {s : List Char} {fields : List UInt8} {val digLen : ℕ} {ip : IP}
    (h : parseIPv4Fields fields val digLen s = some ip) (hfields : fields.length ≤ 3) :
  ip.length = 4
  := by
  induction s generalizing fields val digLen with
  | nil =>
    rw [parseIPv4Fields] at h
    split at h
    · cases h
    · cases h
      rw [List.length_append, List.length_singleton]
      omega
  | cons c rest ih =>
    rw [parseIPv4Fields] at h
    split at h
    · split at h
      · cases h
      split at h
      · cases h
      · exact ih h hfields
    · split at h
      · cases h
      split at h
      · cases h
      split at h
      · cases h
      · apply ih h
        rw [List.length_append, List.length_singleton]
        omega

/-- Bytes come in pairs, and the ellipsis is before one of them. -/
structure Groups (room : ℕ) (ip : IP) (ellipsis : Option ℕ) : Prop where
  length : ip.length + 2 * room ≤ 16
  ellipsis_le : ∀ e ∈ ellipsis, e ≤ ip.length

/-- The groups that are read fit into sixteen bytes, and the ellipsis stands among them. -/
theorem parseGroups_length {room : ℕ} {ip ip' : IP} {ellipsis ellipsis' : Option ℕ}
    {s rest : List Char} (h : parseGroups room ip ellipsis s = some (ip', ellipsis', rest))
    (hgroups : Groups room ip ellipsis) :
  ip'.length ≤ 16 ∧ ∀ e ∈ ellipsis', e ≤ ip'.length
  := by
  induction room generalizing ip ellipsis s with
  | zero =>
    cases h
    exact ⟨by have := hgroups.length; omega, hgroups.ellipsis_le⟩
  | succ room ih =>
    have hlength := hgroups.length
    have happend : ∀ a b : UInt8, (ip ++ [a, b]).length = ip.length + 2 := by simp
    have hle : ∀ a b : UInt8, ∀ e ∈ ellipsis, e ≤ (ip ++ [a, b]).length := by
      intro a b e he
      rw [happend]
      exact (hgroups.ellipsis_le e he).trans (Nat.le_add_right _ _)
    rw [parseGroups] at h
    split at h
    · cases h
    case h_2 acc off rest₁ hread =>
      split at h
      · cases h
      split at h
      · split at h
        · cases h
        split at h
        · cases h
        · obtain ⟨v4, hv4, heq⟩ := Option.map_eq_some_iff.mp h
          cases heq
          have hlength4 := length_parseIPv4Fields hv4 (Nat.zero_le 3)
          rw [List.length_append, hlength4]
          refine ⟨by omega, ?_⟩
          intro e he
          exact (hgroups.ellipsis_le e he).trans (Nat.le_add_right _ _)
      dsimp only at h
      split at h
      · cases h
        refine ⟨?_, hle _ _⟩
        rw [happend]
        omega
      · split at h
        · cases h
        split at h
        · apply ih h ⟨_, hle _ _⟩
          rw [happend]
          omega
        split at h
        · cases h
        split at h
        · cases h
          refine ⟨?_, ?_⟩
          · rw [happend]
            omega
          · rintro _ ⟨⟩
            rfl
        · apply ih h ⟨_, _⟩
          · rw [happend]
            omega
          · rintro _ ⟨⟩
            rfl

/-- With its ellipsis filled, an address has sixteen bytes. -/
theorem length_expandEllipsis {ip ip' : IP} {ellipsis : Option ℕ}
    (h : expandEllipsis ip ellipsis = some ip') (hip : ip.length ≤ 16)
    (hle : ∀ e ∈ ellipsis, e ≤ ip.length) :
  ip'.length = 16
  := by
  cases ellipsis with
  | none =>
    rw [expandEllipsis] at h
    split at h
    · cases h
    · cases h
      omega
  | some e =>
    have := hle e rfl
    rw [expandEllipsis] at h
    split at h
    · cases h
      simp only [List.length_append, List.length_take, List.length_replicate, List.length_drop]
      omega
    · cases h

theorem length_readIPv6 {s : List Char} {ellipsis : Option ℕ} {ip : IP}
    (h : readIPv6 ellipsis s = some ip) (hellipsis : ∀ e ∈ ellipsis, e = 0) :
  ip.length = 16
  := by
  rw [readIPv6] at h
  split at h
  · cases h
  case h_2 ip' ellipsis' rest hgroups =>
    split at h
    · cases h
    · obtain ⟨hlength, hle⟩ :=
        parseGroups_length hgroups ⟨by simp, fun e he => by simp [hellipsis e he]⟩
      exact length_expandEllipsis h hlength hle

theorem length_parseIPv6 {s : List Char} {ip : IP} (h : parseIPv6 s = some ip) :
  ip.length = 16
  := by
  rw [parseIPv6] at h
  split at h
  · cases h
  split at h
  · apply length_readIPv6 h
    simp
  · split at h
    · cases h
      rfl
    · apply length_readIPv6 h
      simp

/-- An address has 32 bits and the form of an IPv4 address, or 128 bits. -/
theorem parseAddr_cases {s : List Char} {bits : ℕ} {ip : IP} (h : parseAddr s = some (bits, ip)) :
  (bits = 32 ∧ ∃ v4 : IP, v4.length = 4 ∧ ip = v4InV6Prefix ++ v4) ∨ (bits = 128 ∧ ip.length = 16)
  := by
  rw [parseAddr] at h
  split at h
  · cases h
  split at h
  · obtain ⟨v4, hv4, heq⟩ := Option.map_eq_some_iff.mp h
    cases heq
    exact .inl ⟨rfl, v4, length_parseIPv4Fields hv4 (Nat.zero_le 3), rfl⟩
  split at h
  · obtain ⟨ip', hip', heq⟩ := Option.map_eq_some_iff.mp h
    cases heq
    exact .inr ⟨rfl, length_parseIPv6 hip'⟩
  · cases h

/-- Every address that is parsed has sixteen bytes. -/
theorem length_parseIP {s : String} {ip : IP} (h : parseIP s = some ip) :
  ip.length = 16
  := by
  obtain ⟨⟨bits, ip'⟩, hparse, rfl⟩ := Option.map_eq_some_iff.mp h
  obtain ⟨-, v4, hlength, rfl⟩ | ⟨-, hlength⟩ := parseAddr_cases hparse
  · rw [List.length_append, hlength]
    rfl
  · exact hlength

/-- The 16-byte form of an IPv4 address is masked in its 4-byte form. -/
theorem maskIP_v4InV6Prefix {v4 : IP} {mask : IPMask} (hv4 : v4.length = 4)
    (hmask : mask.length = 4) :
  maskIP (v4InV6Prefix ++ v4) mask = List.zipWith (· &&& ·) v4 mask
  := by
  have htake : (v4InV6Prefix ++ v4).take 12 = v4InV6Prefix := by simp [v4InV6Prefix]
  have hdrop : (v4InV6Prefix ++ v4).drop 12 = v4 := by simp [v4InV6Prefix]
  have hlength : (v4InV6Prefix ++ v4).length = 16 := by
    rw [List.length_append, hv4]
    rfl
  simp [maskIP, hmask, hlength, htake, hdrop, hv4]

/-- The address of a network that is read is as long as the mask. -/
theorem length_parseCIDR {s : String} {n : IPNet} (h : parseCIDR s = some n) :
  n.ip.length = n.mask.length
  := by
  rw [parseCIDR] at h
  split at h
  · cases h
  split at h
  · cases h
  case h_2 addr mask _ bits ip hparse =>
    split at h
    · cases h
    split at h
    · cases h
    case h_2 ones hones =>
      split at h
      · cases h
      case isFalse hle =>
        cases h
        obtain ⟨rfl, v4, hlength, rfl⟩ | ⟨rfl, hlength⟩ := parseAddr_cases hparse
        · have hmask : (cidrMask ones 32).length = 4 := by
            rw [cidrMask_eq (Or.inl rfl) (by omega), length_maskBytes]
          rw [maskIP_v4InV6Prefix hlength hmask, List.length_zipWith, hlength, hmask]
          rfl
        · have hmask : (cidrMask ones 128).length = 16 := by
            rw [cidrMask_eq (Or.inr rfl) (by omega), length_maskBytes]
          simp [maskIP, hmask, hlength]

/-- As many bytes are read as are asked for. -/
theorem length_parseBytes {sep : Char} {n : ℕ} {s : List Char} {bs : List UInt8}
    (h : parseBytes sep n s = some bs) :
  bs.length = n
  := by
  induction n generalizing s bs with
  | zero =>
    cases h
    rfl
  | succ n ih =>
    rw [parseBytes] at h
    split at h
    · cases h
    · obtain ⟨bs', hbs', rfl⟩ := Option.map_eq_some_iff.mp h
      rw [List.length_cons, ih hbs']

theorem length_parsePairs {sep : Char} {n : ℕ} {s : List Char} {bs : List UInt8}
    (h : parsePairs sep n s = some bs) :
  bs.length = 2 * n
  := by
  induction n generalizing s bs with
  | zero =>
    cases h
    rfl
  | succ n ih =>
    rw [parsePairs] at h
    split at h
    · obtain ⟨bs', hbs', rfl⟩ := Option.map_eq_some_iff.mp h
      rw [List.length_cons, List.length_cons, ih hbs']
      omega
    · cases h

/-- A hardware address that is parsed is not empty. -/
theorem parseMAC_ne_nil {s : String} {mac : List UInt8} (h : parseMAC s = some mac) :
  mac ≠ []
  := by
  rw [parseMAC] at h
  dsimp only at h
  split at h
  · cases h
  split at h
  · split at h
    · cases h
    · have hlength := length_parseBytes h
      rintro rfl
      rw [List.length_nil] at hlength
      omega
  split at h
  · split at h
    · cases h
    · have hlength := length_parsePairs h
      rintro rfl
      rw [List.length_nil] at hlength
      omega
  · cases h

/-! ### Reading what was written -/

section

variable {fields : List UInt8} {val digLen d : ℕ} {rest : List Char}

/-- A digit extends the field, if it has no leading zero and stays a byte. -/
theorem parseIPv4Fields_digit (hd : d < 10) (hzero : digLen = 1 → val ≠ 0)
    (hval : val * 10 + d ≤ 255) :
  parseIPv4Fields fields val digLen (Nat.digitChar d :: rest)
    = parseIPv4Fields fields (val * 10 + d) (digLen + 1) rest
  := by
  rw [parseIPv4Fields, decimalDigit_digitChar d hd]
  dsimp only
  rw [if_neg fun h => hzero h.1 h.2, if_neg (by omega)]

/-- A dot ends the field. -/
theorem parseIPv4Fields_dot (hdigits : digLen ≠ 0) (hrest : rest ≠ [])
    (hfields : fields.length ≠ 3) :
  parseIPv4Fields fields val digLen ('.' :: rest)
    = parseIPv4Fields (fields ++ [UInt8.ofNat val]) 0 0 rest
  := by
  have hdot : decimalDigit '.' = none := by decide
  rw [parseIPv4Fields, hdot]
  simp [hdigits, hrest, hfields]

/-- The numeral of a byte is read as a field. -/
theorem parseIPv4Fields_appendDecimal (fields : List UInt8) (x : UInt8) (rest : List Char) :
  ∃ digLen ≠ 0, parseIPv4Fields fields 0 0 (appendDecimal x ++ rest)
    = parseIPv4Fields fields x.toNat digLen rest
  := by
  have hx := x.toNat_lt
  rw [appendDecimal]
  by_cases h100 : 100 ≤ x.toNat
  · refine ⟨3, by decide, ?_⟩
    rw [if_pos h100, if_pos (by omega)]
    simp only [List.cons_append, List.nil_append]
    rw [parseIPv4Fields_digit (by omega) (by decide) (by omega),
      parseIPv4Fields_digit (by omega) (by omega) (by omega),
      parseIPv4Fields_digit (by omega) (by omega) (by omega)]
    congr 1
    omega
  · by_cases h10 : 10 ≤ x.toNat
    · refine ⟨2, by decide, ?_⟩
      rw [if_neg h100, if_pos h10]
      simp only [List.cons_append, List.nil_append]
      rw [parseIPv4Fields_digit (by omega) (by decide) (by omega),
        parseIPv4Fields_digit (by omega) (by omega) (by omega)]
      congr 1
      omega
    · refine ⟨1, by decide, ?_⟩
      rw [if_neg h100, if_neg h10]
      simp only [List.cons_append, List.nil_append]
      rw [parseIPv4Fields_digit (by omega) (by decide) (by omega)]
      congr 1
      omega

end

/-- Three of the four bytes are followed by a dot. -/
theorem parseIPv4Fields_field {fields : List UInt8} (x : UInt8) {rest : List Char}
    (hrest : rest ≠ []) (hfields : fields.length ≠ 3) :
  parseIPv4Fields fields 0 0 (appendDecimal x ++ '.' :: rest)
    = parseIPv4Fields (fields ++ [x]) 0 0 rest
  := by
  obtain ⟨digLen, hdigits, heq⟩ := parseIPv4Fields_appendDecimal fields x ('.' :: rest)
  rw [heq, parseIPv4Fields_dot hdigits hrest hfields, UInt8.ofNat_toNat]

theorem appendDecimal_ne_nil (x : UInt8) (rest : List Char) :
  appendDecimal x ++ rest ≠ []
  := by
  simp [appendDecimal]

theorem eq_of_length_eq_four {ip : IP} (hip : ip.length = 4) :
  ∃ a b c d, ip = [a, b, c, d]
  := by
  obtain ⟨a, rest, rfl⟩ := List.exists_cons_of_length_eq_add_one hip
  obtain ⟨b, c, d, rfl⟩ := List.length_eq_three.mp (Nat.succ.inj hip)
  exact ⟨a, b, c, d, rfl⟩

/-- The text of an IPv4 address is read back field by field. -/
theorem parseIPv4Fields_ipv4Chars {ip : IP} (hip : ip.length = 4) :
  parseIPv4Fields [] 0 0 (ipv4Chars ip) = some ip
  := by
  obtain ⟨a, b, c, d, rfl⟩ := eq_of_length_eq_four hip
  have hlast := parseIPv4Fields_appendDecimal [a, b, c] d []
  obtain ⟨digLen, -, hlast⟩ := hlast
  simp only [ipv4Chars, List.map_cons, List.map_nil, join]
  rw [parseIPv4Fields_field a (appendDecimal_ne_nil _ _) (by decide),
    parseIPv4Fields_field b (appendDecimal_ne_nil _ _) (by simp),
    parseIPv4Fields_field c (by simpa using appendDecimal_ne_nil d []) (by simp)]
  rw [List.append_nil] at hlast
  apply hlast.trans
  simp [parseIPv4Fields]

/-- The characters of a numeral are digits. -/
theorem mem_appendDecimal {x : UInt8} {c : Char} (hc : c ∈ appendDecimal x) :
  ∃ d < 10, c = Nat.digitChar d
  := by
  have hx := x.toNat_lt
  rw [appendDecimal, List.mem_append, List.mem_append] at hc
  obtain (hc | hc) | hc := hc
  · split at hc
    · exact ⟨x.toNat / 100, by omega, List.mem_singleton.mp hc⟩
    · cases hc
  · split at hc
    · exact ⟨x.toNat / 10 % 10, by omega, List.mem_singleton.mp hc⟩
    · cases hc
  · exact ⟨x.toNat % 10, by omega, List.mem_singleton.mp hc⟩

/-- A character of a joined text is the separator or one of the texts. -/
theorem mem_join {sep c : Char} {texts : List (List Char)} (hc : c ∈ join sep texts) :
  c = sep ∨ ∃ s ∈ texts, c ∈ s
  := by
  induction texts with
  | nil => cases hc
  | cons s texts ih =>
    cases texts with
    | nil => exact .inr ⟨s, List.mem_cons_self, hc⟩
    | cons t rest =>
      rw [join, List.mem_append, List.mem_cons] at hc
      obtain hc | hc | hc := hc
      · exact .inr ⟨s, List.mem_cons_self, hc⟩
      · exact .inl hc
      · obtain hc | ⟨s', hs', hc⟩ := ih hc
        · exact .inl hc
        · exact .inr ⟨s', List.mem_cons_of_mem _ hs', hc⟩

theorem mem_ipv4Chars {ip : IP} {c : Char} (hc : c ∈ ipv4Chars ip) :
  c = '.' ∨ ∃ d < 10, c = Nat.digitChar d
  := by
  obtain hc | ⟨s, hs, hc⟩ := mem_join hc
  · exact .inl hc
  · obtain ⟨x, -, rfl⟩ := List.mem_map.mp hs
    exact .inr (mem_appendDecimal hc)

/-- The first character that tells how to read an address in dotted form is a dot. -/
theorem find?_ipv4Chars {ip : IP} (hip : ip.length = 4) :
  ((ipv4Chars ip).find? fun c => c = '.' ∨ c = ':' ∨ c = '%') = some '.'
  := by
  obtain ⟨a, b, c, d, rfl⟩ := eq_of_length_eq_four hip
  have hnone : ((appendDecimal a).find? fun c => c = '.' ∨ c = ':' ∨ c = '%') = none := by
    apply List.find?_eq_none.mpr
    intro c hc
    obtain ⟨d, hd, rfl⟩ := mem_appendDecimal hc
    simp
  simp only [ipv4Chars, List.map_cons, List.map_nil, join, List.find?_append, hnone]
  rfl

/-- The text of an IPv4 address is read back in its 16-byte form. -/
theorem parseAddr_ipv4Chars {ip : IP} (hip : ip.length = 4) :
  parseAddr (ipv4Chars ip) = some (32, v4InV6Prefix ++ ip)
  := by
  rw [parseAddr, find?_ipv4Chars hip]
  simp [parseIPv4Fields_ipv4Chars hip]

/-- An IPv4 address is read back in its 16-byte form. -/
theorem parseIP_ipString {ip : IP} (hip : (to4 ip).length = 4) :
  parseIP (ipString ip) = some (v4InV6Prefix ++ to4 ip)
  := by
  have hne : ip ≠ [] := by
    rintro rfl
    cases hip
  have hlength : ¬ (ip.length ≠ 4 ∧ ip.length ≠ 16) := by
    rintro ⟨h4, h16⟩
    rw [to4, if_neg h4, if_neg fun h => h16 h.1] at hip
    cases hip
  rw [ipString, if_neg hne, if_neg hlength, if_pos hip, parseIP, String.toList_ofList,
    parseAddr_ipv4Chars hip]
  rfl

theorem parseIP_ipString_of_length {ip : IP} (hip : ip.length = 4) :
  parseIP (ipString ip) = some (v4InV6Prefix ++ ip)
  := by
  have hto4 : (to4 ip).length = 4 := by rwa [to4_of_length hip]
  rw [parseIP_ipString hto4, to4_of_length hip]

/-- A text is cut at the first separator. -/
theorem cut_append {sep : Char} {s : List Char} (hs : sep ∉ s) (rest : List Char) :
  cut sep (s ++ sep :: rest) = some (s, rest)
  := by
  induction s with
  | nil => simp [cut]
  | cons c s ih =>
    rw [List.mem_cons, not_or] at hs
    rw [List.cons_append, cut, if_neg (Ne.symm hs.1), ih hs.2]
    rfl

theorem digitChar_ne_slash :
  ∀ d < 10, Nat.digitChar d ≠ '/'
  := by decide

/-- The text of a prefix length is read back. -/
theorem dtoi_toDigits :
  ∀ n ≤ 32, dtoi 0 (Nat.toDigits 10 n) = some n ∧ Nat.toDigits 10 n ≠ []
  := by decide

/-- An IPv4 network is read back with its address masked. -/
theorem parseCIDR_ipNetString {q : IPNet} {ones : ℕ} (hq : IsCIDR q ones 32) :
  parseCIDR (ipNetString q) = some ⟨network q, q.mask⟩
  := by
  obtain ⟨x, hx, hto4, hnetwork⟩ := hq.exists_address
  have hx4 : x.length = 4 := by omega
  have hmask : q.mask = maskBytes 4 ones := by
    rw [hq.mask_eq, cidrMask_eq hq.family hq.ones_le]
  have hmaskLength : q.mask.length = 4 := by
    rw [hmask, length_maskBytes]
  have hne : x ≠ [] := List.ne_nil_of_length_eq_add_one hx4
  have hmask_ne : q.mask ≠ [] := List.ne_nil_of_length_eq_add_one hmaskLength
  obtain ⟨hdtoi, hdigits⟩ := dtoi_toDigits ones hq.ones_le
  have hnumber : networkNumberAndMask q = (x, q.mask) := by
    simp [networkNumberAndMask, ← hto4 rfl, hne, hx4, hmaskLength]
  have htext : ipNetString q = String.ofList (ipv4Chars x ++ '/' :: Nat.toDigits 10 ones) := by
    have hsimple : simpleMaskLength q.mask = some ones := by
      rw [hmask, simpleMaskLength_maskBytes hq.ones_le]
    have hip : ipString x = String.ofList (ipv4Chars x) := by
      simp [ipString, hne, hx4, to4_of_length hx4]
    simp only [ipNetString, hnumber, hne, hmask_ne, or_self, if_false, hsimple, hip]
    rw [← String.toList_inj]
    simp
  have hslash : '/' ∉ ipv4Chars x := by
    intro hc
    obtain hc | ⟨d, hd, hc⟩ := mem_ipv4Chars hc
    · revert hc
      decide
    · exact absurd hc.symm (digitChar_ne_slash d hd)
  have hread : maskIP (v4InV6Prefix ++ x) (cidrMask ones 32) = network q := by
    rw [← hq.mask_eq, maskIP_v4InV6Prefix hx4 hmaskLength, hnetwork, hx4, hmask]
  rw [parseCIDR, htext, String.toList_ofList, cut_append hslash]
  dsimp only
  rw [parseAddr_ipv4Chars hx4]
  dsimp only
  rw [if_neg hdigits, hdtoi]
  dsimp only
  rw [if_neg (Nat.not_lt.mpr hq.ones_le), hread, hq.mask_eq]

/-- Two hexadecimal digits are read back as their byte. -/
theorem xtoi2_appendHex {e : Char} (x : UInt8) {rest : List Char}
    (hrest : rest = [] ∨ rest.head? = some e) :
  xtoi2 e (appendHex x ++ rest) = some x
  := by
  have hx := x.toNat_lt
  have hsep : ¬ (rest ≠ [] ∧ rest.head? ≠ some e) := by
    rintro ⟨hne, hhead⟩
    exact hrest.elim hne hhead
  simp only [appendHex, List.cons_append, List.nil_append, xtoi2]
  rw [if_neg hsep, hexDigit_digitChar _ (by omega), hexDigit_digitChar _ (by omega)]
  dsimp only
  rw [show x.toNat / 16 * 16 + x.toNat % 16 = x.toNat by omega, UInt8.ofNat_toNat]

/-- The text of a hardware address is read back byte by byte. -/
theorem parseBytes_join (e : Char) (bs : List UInt8) :
  parseBytes e bs.length (join e (bs.map appendHex)) = some bs
  := by
  induction bs with
  | nil => rfl
  | cons b bs ih =>
    cases bs with
    | nil =>
      have hb := xtoi2_appendHex (e := e) b (.inl rfl)
      rw [List.append_nil] at hb
      simp only [List.map_cons, List.map_nil, join, List.length_singleton, parseBytes, hb]
      rfl
    | cons c bs =>
      have hb := xtoi2_appendHex b
        (.inr (rfl : (e :: join e ((c :: bs).map appendHex)).head? = some e))
      have hdrop : (appendHex b ++ e :: join e ((c :: bs).map appendHex)).drop 3
          = join e ((c :: bs).map appendHex) := rfl
      rw [List.map_cons, List.map_cons, join, ← List.map_cons, List.length_cons, parseBytes, hb]
      dsimp only
      rw [hdrop, ih]
      rfl

/-- Every byte takes two digits and a separator, but for the last one. -/
theorem length_join (e : Char) (bs : List UInt8) (hbs : bs ≠ []) :
  (join e (bs.map appendHex)).length + 1 = 3 * bs.length
  := by
  induction bs with
  | nil => exact absurd rfl hbs
  | cons b bs ih =>
    cases bs with
    | nil => rfl
    | cons c bs =>
      have hlength := ih (List.cons_ne_nil c bs)
      rw [List.map_cons, List.map_cons, join, ← List.map_cons, List.length_append, List.length_cons]
      simp only [appendHex, List.length_cons, List.length_nil] at hlength ⊢
      omega

/-- A hardware address of a usual length is read back. -/
theorem parseMAC_macString {mac : List UInt8}
    (hmac : mac.length = 6 ∨ mac.length = 8 ∨ mac.length = 20) :
  parseMAC (macString mac) = some mac
  := by
  obtain ⟨b, rest, rfl⟩ : ∃ b rest, mac = b :: rest := by
    apply List.exists_cons_of_ne_nil
    rintro rfl
    simp at hmac
  obtain ⟨c, rest, rfl⟩ : ∃ c rest', rest = c :: rest' := by
    apply List.exists_cons_of_ne_nil
    rintro rfl
    simp at hmac
  have hlength := length_join ':' (b :: c :: rest) (List.cons_ne_nil _ _)
  have hsep : (join ':' ((b :: c :: rest).map appendHex))[2]? = some ':' := rfl
  have hcount : ((join ':' ((b :: c :: rest).map appendHex)).length + 1) / 3 =
      (b :: c :: rest).length := by
    omega
  rw [parseMAC, macString, String.toList_ofList]
  dsimp only
  rw [if_neg (by omega), if_pos (.inl hsep), hcount, if_neg (by omega), hsep, Option.getD_some,
    parseBytes_join]

end Net
