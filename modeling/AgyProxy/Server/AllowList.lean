import AgyProxy.Js.Int32
import AgyProxy.Js.NumberSpec

/-!
# AgyProxy.Server.AllowList — the address allow-list of the admin API (`src/server/admin-api.ts`)

* `ipv4ToInt`, `normalizeIp`, `ipInCidr`, `ipAllowed`: as the code computes them, with the 32-bit operators.
* `DottedQuad`, `Network`: the address a text is a dotted quad of, and the network an entry names.
* `ipv4ToInt_eq_some_iff`, `ipInCidr_iff`: for every text.
* `allowList_matches`: prefix matching and the list.
-/

namespace AgyProxy

open Js

/-! ### The code -/

/-- `/^\d+$/`. -/
def digitsOnly (s : JsString) : Bool := !s.isEmpty && s.all isDigit

/-- `Number(p)`, unless it is above 255. -/
def octet? (p : JsString) : Option ℤ :=
  if digitsOnly p then
    match stringToNumber p with
    | .fin q => if 255 < q then none else some q.floor
    -- too many digits for a double
    | _ => none
  else none

/-- The loop of `ipv4ToInt`. -/
def octetsToInt : ℤ → List JsString → Option ℤ
  | out, [] => some out
  | out, p :: ps => (octet? p).bind fun n => octetsToInt (shl out 8 + n) ps

def ipv4ToInt (ip : JsString) : Option ℕ :=
  let parts := ip.splitOn 0x2E
  if parts.length ≠ 4 then none else (octetsToInt 0 parts).map toUint32

def normalizeIp (ip : JsString) : JsString :=
  if (js "::ffff:").isPrefixOf ip then ip.drop 7
  else if ip = js "::1" then js "127.0.0.1"
  else ip

/-- `bits` as the entry gives it. -/
def entryBits (bitsRaw : Option JsString) : Js.Num :=
  match bitsRaw with
  | some raw => if raw ≠ [] then stringToNumber raw else .fin 32
  | none => .fin 32

/-- An integer from 0 to 32. -/
def prefixLength? : Js.Num → Option ℕ
  | .fin q => if q.den = 1 ∧ 0 ≤ q ∧ q ≤ 32 then some q.num.toNat else none
  | _ => none

def ipInCidr (ip cidr : JsString) : Bool :=
  let parts := cidr.splitOn 0x2F
  match prefixLength? (entryBits parts[1]?), ipv4ToInt ip, ipv4ToInt (parts.head?.getD []) with
  | some bits, some ipInt, some rangeInt =>
    if bits = 0 then true
    else
      let mask : ℕ := toUint32 (shl allOnes32 (32 - bits))
      toUint32 (bitAnd ipInt mask) == toUint32 (bitAnd rangeInt mask)
  | _, _, _ => false

/-- The non-empty entries of the list. -/
def allowEntries (allowlist : JsString) : List JsString := ((allowlist.splitOn 0x2C).map trim).filter (· ≠ [])

def ipAllowed (ip allowlist : JsString) : Bool :=
  let entries := allowEntries allowlist
  if entries.isEmpty then true else entries.any fun cidr => ipInCidr (normalizeIp ip) cidr

example : ipInCidr (js "192.168.7.9") (js "192.168.0.0/16") = true ∧ ipInCidr (js "10.0.0.1") (js "10.0.0.2") = false ∧
    ipAllowed (js "::ffff:10.1.2.3") (js " 10.0.0.0/8 , ") = true := by decide +kernel

/-! ### Addresses and networks -/

/-- One part of a dotted quad, leading zeros allowed. -/
structure Octet (p : JsString) (n : ℕ) : Prop where
  nonempty : p ≠ []
  digits : AllDigits p
  value : digitsValue 10 0 p = some n
  le : n ≤ 255

def DottedQuad (s : JsString) (a : BitVec 32) : Prop :=
  ∃ (ps : List JsString) (ns : List ℕ), ps.length = 4 ∧ s = [0x2E].intercalate ps ∧ List.Forall₂ Octet ps ns ∧
    a = BitVec.ofNat 32 (ns.foldl (fun m n => m * 256 + n) 0)

/-- The prefix length that the text behind the first slash gives, up to the next one. -/
def NamesLength (after : JsString) (bits : ℕ) : Prop :=
  let raw := after.takeWhile (· ≠ 0x2F)
  raw = [] ∧ bits = 32 ∨ raw ≠ [] ∧ stringToNumber raw = .fin bits

/-- The network an entry names: a dotted quad, alone or with a prefix length. -/
def Network (cidr : JsString) (r : BitVec 32) (bits : ℕ) : Prop :=
  ∃ range, DottedQuad range r ∧ bits ≤ 32 ∧
    (cidr = range ∧ bits = 32 ∨ ∃ after, cidr = range ++ 0x2F :: after ∧ NamesLength after bits)

/-! ### Parsing an address -/

theorem digitsOnly_iff {s : JsString} : digitsOnly s = true ↔ s ≠ [] ∧ AllDigits s := by
  unfold digitsOnly AllDigits
  rw [Bool.and_eq_true, Bool.not_eq_true', List.isEmpty_eq_false_iff, List.all_eq_true]

theorem octet?_eq_some_iff {p : JsString} {z : ℤ} : octet? p = some z ↔ ∃ n, Octet p n ∧ z = n := by
  unfold octet?
  by_cases hdigits : digitsOnly p = true
  · rw [if_pos hdigits]
    obtain ⟨hne, hall⟩ := digitsOnly_iff.mp hdigits
    obtain ⟨n, hn⟩ := digitsValue_isSome hall 0
    rw [stringToNumber_digits hall hne hn]
    by_cases hle : n ≤ 255
    · have hlt : n < 2 ^ 53 := by omega
      have hsmall : ¬(255 : ℚ) < n := by exact_mod_cast Nat.not_lt.mpr hle
      have hfloor : ((n : ℚ)).floor = (n : ℤ) := by exact_mod_cast Rat.floor_intCast n
      rw [decimalToNum_natCast hlt]
      dsimp only
      rw [if_neg hsmall, hfloor]
      constructor
      · intro h
        exact ⟨n, ⟨hne, hall, hn, hle⟩, (Option.some.inj h).symm⟩
      · rintro ⟨m, hm, rfl⟩
        rw [Option.some.inj (hn.symm.trans hm.value)]
    · have hnone : ∀ m, ¬ Octet p m := fun m hm => hle (Option.some.inj (hn.symm.trans hm.value) ▸ hm.le)
      have hlhs : ∀ z : ℤ, (match decimalToNum false n 0 with
          | .fin q => if 255 < q then none else some q.floor
          | _ => none) ≠ some z := by
        intro z
        rcases decimalToNum_large (Nat.lt_of_not_le hle) with h | ⟨q, h, hq⟩
        · rw [h]
          exact fun h => nomatch h
        · rw [h]
          dsimp only
          rw [if_pos hq]
          exact fun h => nomatch h
      exact iff_of_false (hlhs z) fun ⟨m, hm, _⟩ => hnone m hm
  · rw [if_neg hdigits]
    exact iff_of_false (fun h => nomatch h) fun ⟨m, hm, _⟩ => hdigits (digitsOnly_iff.mpr ⟨hm.nonempty, hm.digits⟩)

/-- The loop reads its octets and keeps the pattern of the address so far. -/
theorem octetsToInt_of_octets {ps : List JsString} {ns : List ℕ} (h : List.Forall₂ Octet ps ns) {out : ℤ} {m : ℕ}
    (hout : toInt32 out = BitVec.ofNat 32 m) :
    ∃ z, octetsToInt out ps = some z ∧
      toInt32 z = BitVec.ofNat 32 (ns.foldl (fun m n => m * 256 + n) m) := by
  induction h generalizing out m with
  | nil => exact ⟨out, rfl, hout⟩
  | @cons p n ps ns hoctet _ ih =>
    obtain ⟨z, hz, hpattern⟩ := ih (toInt32_step hout n)
    refine ⟨z, ?_, hpattern⟩
    rw [octetsToInt, octet?_eq_some_iff.mpr ⟨n, hoctet, rfl⟩]
    exact hz

theorem octets_of_octetsToInt : ∀ {ps : List JsString} {out z : ℤ}, octetsToInt out ps = some z →
    ∃ ns, List.Forall₂ Octet ps ns
  | [], _, _, _ => ⟨[], List.Forall₂.nil⟩
  | p :: ps, _, _, h => by
    obtain ⟨x, hx, hrest⟩ := Option.bind_eq_some_iff.mp h
    obtain ⟨n, hn, -⟩ := octet?_eq_some_iff.mp hx
    obtain ⟨ns, hns⟩ := octets_of_octetsToInt hrest
    exact ⟨n :: ns, List.Forall₂.cons hn hns⟩

/-- No part of a quad has another unit than digits. -/
theorem Octet.not_mem {ps : List JsString} {ns : List ℕ} (h : List.Forall₂ Octet ps ns) {u : UInt16}
    (hu : isDigit u = false) : ∀ p ∈ ps, u ∉ p := by
  induction h with
  | nil => exact fun p hp => absurd hp List.not_mem_nil
  | @cons p n ps ns hoctet _ ih =>
    have hhead : u ∉ p := fun hmem => Bool.false_ne_true (hu.symm.trans (hoctet.digits u hmem))
    exact List.forall_mem_cons.mpr ⟨hhead, ih⟩

/-- **`ipv4ToInt` reads the dotted quads**, as the unsigned value of their 32 bits. -/
theorem ipv4ToInt_eq_some_iff {s : JsString} {x : ℕ} :
    ipv4ToInt s = some x ↔ ∃ a, DottedQuad s a ∧ x = a.toNat := by
  unfold ipv4ToInt
  constructor
  · intro h
    dsimp only at h
    split_ifs at h with hlength
    obtain ⟨z, hz, rfl⟩ := Option.map_eq_some_iff.mp h
    obtain ⟨ns, hns⟩ := octets_of_octetsToInt hz
    obtain ⟨z', hz', hpattern⟩ := octetsToInt_of_octets hns (show toInt32 0 = BitVec.ofNat 32 0 from rfl)
    obtain rfl := Option.some.inj (hz.symm.trans hz')
    have hjoin : s = [0x2E].intercalate (s.splitOn 0x2E) := (List.intercalate_splitOn 0x2E).symm
    refine ⟨_, ⟨_, ns, not_not.mp hlength, hjoin, hns, rfl⟩, ?_⟩
    unfold toUint32
    rw [hpattern]
  · rintro ⟨a, ⟨ps, ns, hlength, rfl, hns, rfl⟩, rfl⟩
    have hne : ps ≠ [] := by
      rintro rfl
      cases hlength
    rw [List.splitOn_intercalate 0x2E (Octet.not_mem hns (by decide)) hne]
    obtain ⟨z, hz, hpattern⟩ := octetsToInt_of_octets hns (show toInt32 0 = BitVec.ofNat 32 0 from rfl)
    dsimp only
    rw [if_neg (not_not.mpr hlength), hz, Option.map_some, toUint32, hpattern]

/-! ### Matching an entry -/

theorem prefixLength?_eq_some_iff {x : Js.Num} {bits : ℕ} :
    prefixLength? x = some bits ↔ bits ≤ 32 ∧ x = .fin bits := by
  unfold prefixLength?
  cases x with
  | inf neg => exact iff_of_false (fun h => nomatch h) fun h => nomatch h.2
  | nan => exact iff_of_false (fun h => nomatch h) fun h => nomatch h.2
  | fin q =>
    dsimp only
    constructor
    · intro h
      split_ifs at h with hq
      obtain rfl := Option.some.inj h
      obtain ⟨hden, hpos, hle⟩ := hq
      have hnum : (q.num.toNat : ℤ) = q.num := Int.toNat_of_nonneg (Rat.num_nonneg.mpr hpos)
      have hq : ((q.num.toNat : ℕ) : ℚ) = q := by
        rw [← Int.cast_natCast, hnum]
        exact Rat.coe_int_num_of_den_eq_one hden
      refine ⟨?_, by rw [hq]⟩
      rw [← hq] at hle
      exact_mod_cast hle
    · rintro ⟨hle, h⟩
      obtain rfl := Num.fin.inj h
      have hle' : ((bits : ℕ) : ℚ) ≤ 32 := by exact_mod_cast hle
      rw [if_pos ⟨Rat.den_natCast bits, Nat.cast_nonneg bits, hle'⟩, Rat.num_natCast, Int.toNat_natCast]

/-- The first piece of a split text. -/
theorem head?_splitOn (u : UInt16) (s : JsString) : (s.splitOn u).head? = some (s.takeWhile (· ≠ u)) := by
  induction s with
  | nil => rfl
  | cons v s ih =>
    rw [List.splitOn_cons_eq_if_modifyHead]
    by_cases hv : v = u
    · simp [hv]
    · simp [hv, ih]

theorem entryBits_eq_fin_iff {after : JsString} {bits : ℕ} :
    entryBits (after.splitOn 0x2F).head? = .fin bits ↔ NamesLength after bits := by
  unfold entryBits NamesLength
  rw [head?_splitOn]
  generalize after.takeWhile (· ≠ 0x2F) = raw
  dsimp only
  by_cases hraw : raw = []
  · rw [if_neg (not_not.mpr hraw)]
    simp only [hraw, true_and, ne_eq, not_true_eq_false, false_and, or_false, Num.fin.injEq]
    constructor
    · intro h
      exact_mod_cast h.symm
    · intro h
      rw [h]
      rfl
  · rw [if_pos hraw]
    simp [hraw]

theorem mem_intercalate {u sep : UInt16} : ∀ {ps : List JsString}, u ∈ [sep].intercalate ps → u = sep ∨ ∃ p ∈ ps, u ∈ p
  | [], h => absurd h List.not_mem_nil
  | [p], h => by
    rw [List.intercalate_singleton] at h
    exact Or.inr ⟨p, List.mem_cons_self, h⟩
  | p :: p' :: ps, h => by
    rw [List.intercalate_cons_cons, List.mem_append, List.mem_append, List.mem_singleton] at h
    rcases h with (h | h) | h
    · exact Or.inr ⟨p, List.mem_cons_self, h⟩
    · exact Or.inl h
    · rcases mem_intercalate h with h | ⟨q, hq, h⟩
      · exact Or.inl h
      · exact Or.inr ⟨q, List.mem_cons_of_mem p hq, h⟩

/-- A dotted quad is made of digits and dots. -/
theorem DottedQuad.not_mem {s : JsString} {a : BitVec 32} (h : DottedQuad s a) {u : UInt16} (hu : isDigit u = false)
    (hdot : u ≠ 0x2E) : u ∉ s := by
  obtain ⟨ps, ns, -, rfl, hoctets, -⟩ := h
  intro hmem
  rcases mem_intercalate hmem with h | ⟨p, hp, h⟩
  · exact hdot h
  · exact Octet.not_mem hoctets hu p hp h

theorem ipv4ToInt_eq_toNat_iff {s : JsString} {a : BitVec 32} : ipv4ToInt s = some a.toNat ↔ DottedQuad s a := by
  rw [ipv4ToInt_eq_some_iff]
  constructor
  · rintro ⟨b, hquad, h⟩
    rwa [BitVec.eq_of_toNat_eq h]
  · exact fun h => ⟨a, h, rfl⟩

/-- **The network of an entry**, as the code reads it. -/
theorem network_iff {cidr : JsString} {r : BitVec 32} {bits : ℕ} :
    Network cidr r bits ↔ prefixLength? (entryBits (cidr.splitOn 0x2F)[1]?) = some bits ∧
      ipv4ToInt ((cidr.splitOn 0x2F).head?.getD []) = some r.toNat := by
  rw [ipv4ToInt_eq_toNat_iff, prefixLength?_eq_some_iff]
  constructor
  · rintro ⟨range, hquad, hbits, h⟩
    have hslash : 0x2F ∉ range := hquad.not_mem (by decide) (by decide)
    rcases h with ⟨rfl, rfl⟩ | ⟨after, rfl, hafter⟩
    · rw [List.splitOn_eq_singleton hslash]
      exact ⟨⟨hbits, rfl⟩, hquad⟩
    · rw [List.splitOn_append_cons_self_of_not_mem hslash]
      have hlength := entryBits_eq_fin_iff.mpr hafter
      rw [List.head?_eq_getElem?] at hlength
      exact ⟨⟨hbits, hlength⟩, hquad⟩
  · rintro ⟨⟨hbits, hlength⟩, hquad⟩
    by_cases hmem : 0x2F ∈ cidr
    · obtain ⟨range, after, rfl, hslash⟩ := List.eq_append_cons_of_mem hmem
      rw [List.splitOn_append_cons_self_of_not_mem hslash] at hlength hquad
      refine ⟨range, hquad, hbits, Or.inr ⟨after, rfl, entryBits_eq_fin_iff.mp ?_⟩⟩
      rw [List.head?_eq_getElem?]
      exact hlength
    · rw [List.splitOn_eq_singleton hmem] at hlength hquad
      have hall : (32 : ℚ) = bits := Num.fin.inj hlength
      exact ⟨cidr, hquad, hbits, Or.inl ⟨rfl, by exact_mod_cast hall.symm⟩⟩

/-- The masks agree when the leading bits do, also for the lengths 0 and 32. -/
theorem masks_agree_iff {a r : BitVec 32} {bits : ℕ} (h : bits ≤ 32) (hbits : bits ≠ 0) :
    toUint32 (bitAnd a.toNat (toUint32 (shl allOnes32 (32 - bits)))) =
        toUint32 (bitAnd r.toNat (toUint32 (shl allOnes32 (32 - bits)))) ↔ LeadingBitsAgree bits a r := by
  have hcount : (32 - bits) % 32 = 32 - bits := Nat.mod_eq_of_lt (by omega)
  have hmask : toInt32 (toUint32 (shl allOnes32 (32 - bits))) = BitVec.allOnes 32 <<< (32 - bits) := by
    unfold toUint32
    rw [toInt32_toNat, toInt32_shl, toInt32_allOnes, hcount]
  rw [← masked_eq_iff h]
  unfold toUint32 at hmask ⊢
  rw [toInt32_bitAnd, toInt32_bitAnd, hmask, toInt32_toNat, toInt32_toNat]
  exact ⟨BitVec.eq_of_toNat_eq, fun h => congrArg _ h⟩

/-- **`ipInCidr`**, for every text. -/
theorem ipInCidr_iff {ip cidr : JsString} :
    ipInCidr ip cidr = true ↔
      ∃ a r bits, DottedQuad ip a ∧ Network cidr r bits ∧ LeadingBitsAgree bits a r := by
  unfold ipInCidr
  dsimp only
  constructor
  · intro h
    split at h
    · rename_i bits ipInt rangeInt hbits hip hrange
      obtain ⟨a, ha, rfl⟩ := ipv4ToInt_eq_some_iff.mp hip
      obtain ⟨r, hr, rfl⟩ := ipv4ToInt_eq_some_iff.mp hrange
      refine ⟨a, r, bits, ha, network_iff.mpr ⟨hbits, hrange⟩, ?_⟩
      split_ifs at h with hzero
      · exact fun i hi => absurd hi (by omega)
      · exact (masks_agree_iff (prefixLength?_eq_some_iff.mp hbits).1 hzero).mp (beq_iff_eq.mp h)
    · cases h
  · rintro ⟨a, r, bits, ha, hnetwork, hagree⟩
    obtain ⟨hbits, hrange⟩ := network_iff.mp hnetwork
    rw [hbits, hrange, ipv4ToInt_eq_toNat_iff.mpr ha]
    dsimp only
    split_ifs with hzero
    · rfl
    · exact beq_iff_eq.mpr ((masks_agree_iff (prefixLength?_eq_some_iff.mp hbits).1 hzero).mpr hagree)

/-! ### Well-formed entries and the list -/

theorem DottedQuad.unique {s : JsString} {a b : BitVec 32} (ha : DottedQuad s a) (hb : DottedQuad s b) : a = b := by
  have h := (ipv4ToInt_eq_toNat_iff.mpr ha).symm.trans (ipv4ToInt_eq_toNat_iff.mpr hb)
  exact BitVec.eq_of_toNat_eq (Option.some.inj h)

theorem Network.unique {cidr : JsString} {r r' : BitVec 32} {bits bits' : ℕ} (h : Network cidr r bits)
    (h' : Network cidr r' bits') : r = r' ∧ bits = bits' := by
  obtain ⟨hbits, hrange⟩ := network_iff.mp h
  obtain ⟨hbits', hrange'⟩ := network_iff.mp h'
  exact ⟨BitVec.eq_of_toNat_eq (Option.some.inj (hrange.symm.trans hrange')), Option.some.inj (hbits.symm.trans hbits')⟩

/-- A quad with a prefix length. -/
theorem network_length {range : JsString} {r : BitVec 32} {bits : ℕ} (hrange : DottedQuad range r) (hbits : bits ≤ 32) :
    Network (range ++ js "/" ++ natDigits bits) r bits := by
  have hraw : (natDigits bits).takeWhile (· ≠ 0x2F) = natDigits bits :=
    takeWhile_digits (allDigits_natDigits bits) fun c hc => decide_eq_true (digit_ne hc (by decide))
  refine ⟨range, hrange, hbits, Or.inr ⟨natDigits bits, ?_, ?_⟩⟩
  · rw [List.append_assoc]
    rfl
  · unfold NamesLength
    rw [hraw]
    exact Or.inr ⟨natDigits_ne_nil bits, stringToNumber_natDigits (by omega)⟩

theorem network_alone {range : JsString} {r : BitVec 32} (hrange : DottedQuad range r) : Network range r 32 :=
  ⟨range, hrange, le_rfl, Or.inl ⟨rfl, rfl⟩⟩

/-- An address and an entry that name one address and one network. -/
theorem ipInCidr_of_network {ip cidr : JsString} {a r : BitVec 32} {bits : ℕ} (ha : DottedQuad ip a)
    (hr : Network cidr r bits) : ipInCidr ip cidr = true ↔ LeadingBitsAgree bits a r := by
  rw [ipInCidr_iff]
  constructor
  · rintro ⟨a', r', bits', ha', hr', hagree⟩
    obtain ⟨rfl, rfl⟩ := hr.unique hr'
    rwa [ha.unique ha']
  · exact fun hagree => ⟨a, r, bits, ha, hr, hagree⟩

theorem normalizeIp_mapped (s : JsString) : normalizeIp (js "::ffff:" ++ s) = s := by
  unfold normalizeIp
  rw [if_pos (List.isPrefixOf_iff_prefix.mpr (List.prefix_append _ _))]
  rfl

theorem normalizeIp_quad {s : JsString} {a : BitVec 32} (h : DottedQuad s a) : normalizeIp s = s := by
  have hcolon : 0x3A ∉ s := h.not_mem (by decide) (by decide)
  unfold normalizeIp
  rw [if_neg, if_neg]
  · rintro rfl
    exact hcolon (by decide)
  · intro hranges
    exact hcolon ((List.isPrefixOf_iff_prefix.mp hranges).subset (by decide))

/-- **The allow-list**: a well-formed entry matches the addresses that share its leading bits, and the list accepts
an address when it has no entry or one that covers the address, an IPv4-mapped one in its IPv4 form. -/
theorem allowList_matches :
    (∀ ip range a r bits, DottedQuad ip a → DottedQuad range r → bits ≤ 32 →
        (ipInCidr ip (range ++ js "/" ++ natDigits bits) = true ↔ LeadingBitsAgree bits a r)) ∧
      (∀ ip range a r, DottedQuad ip a → DottedQuad range r → (ipInCidr ip range = true ↔ a = r)) ∧
      (∀ ip allowlist, ipAllowed ip allowlist = true ↔
        allowEntries allowlist = [] ∨ ∃ entry ∈ allowEntries allowlist, ∃ a r bits,
          DottedQuad (normalizeIp ip) a ∧ Network entry r bits ∧ LeadingBitsAgree bits a r) ∧
      (∀ s, normalizeIp (js "::ffff:" ++ s) = s) ∧
      ∀ s a, DottedQuad s a → normalizeIp s = s := by
  refine ⟨?_, ?_, ?_, normalizeIp_mapped, fun s a => normalizeIp_quad⟩
  · intro ip range a r bits ha hr hbits
    exact ipInCidr_of_network ha (network_length hr hbits)
  · intro ip range a r ha hr
    exact (ipInCidr_of_network ha (network_alone hr)).trans leadingBitsAgree_all
  · intro ip allowlist
    unfold ipAllowed
    dsimp only
    by_cases hentries : allowEntries allowlist = []
    · simp [hentries]
    · have hne : (allowEntries allowlist).isEmpty = false := List.isEmpty_eq_false_iff.mpr hentries
      rw [hne, if_neg Bool.false_ne_true, List.any_eq_true, or_iff_right hentries]
      simp only [ipInCidr_iff]

/-- An address of the network, one of another, and one named alone. -/
theorem allowList_matches_local :
    ipInCidr (js "10.1.2.3") (js "10.0.0.0/8") = true ∧ ipInCidr (js "11.1.2.3") (js "10.0.0.0/8") = false ∧
      ipInCidr (js "10.1.2.3") (js "10.1.2.3") = true ∧ normalizeIp (js "10.1.2.3") = js "10.1.2.3" := by
  have hinside : DottedQuad (js "10.1.2.3") 0x0A010203 := ipv4ToInt_eq_toNat_iff.mp (by decide +kernel)
  have houtside : DottedQuad (js "11.1.2.3") 0x0B010203 := ipv4ToInt_eq_toNat_iff.mp (by decide +kernel)
  have hrange : DottedQuad (js "10.0.0.0") 0x0A000000 := ipv4ToInt_eq_toNat_iff.mp (by decide +kernel)
  obtain ⟨hranges, halone, -, -, hplain⟩ := allowList_matches
  refine ⟨?_, ?_, (halone _ _ _ _ hinside hinside).mpr rfl, hplain _ _ hinside⟩
  · exact (hranges _ _ _ _ 8 hinside hrange (by decide)).mpr (by unfold LeadingBitsAgree; decide)
  · rw [Bool.eq_false_iff]
    intro h
    exact absurd ((hranges _ _ _ _ 8 houtside hrange (by decide)).mp h) (by unfold LeadingBitsAgree; decide)

end AgyProxy
