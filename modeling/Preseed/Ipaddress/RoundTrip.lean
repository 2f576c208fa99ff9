import Preseed.Ipaddress.Addresses

/-!
# Addresses are read back

The text of an address is the text of no other one: `ip_address` gives it back.
-/

namespace Preseed.Ipaddress

open List Nat

/-! ## Numerals -/

variable {n : ℕ}

theorem digitValue_digitChar (h : n < 16) : digitValue n.digitChar = n := by
  interval_cases n <;> decide

theorem isHexDigit_digitChar (h : n < 16) : isHexDigit n.digitChar = true := by
  interval_cases n <;> decide

theorem ofDigits_append (base : ℕ) (xs ys : Text) :
    ofDigits base (xs ++ ys) = ys.foldl (fun value c => base * value + digitValue c)
      (ofDigits base xs) := by
  simp [ofDigits]

/-- A numeral is read back. -/
theorem ofDigits_toDigits {base : ℕ} (hbase : 1 < base) (hle : base ≤ 16) (n : ℕ) :
    ofDigits base (Nat.toDigits base n) = n := by
  induction n using base_induction base hbase with
  | single m hm =>
    rw [toDigits_of_lt_base hm]
    simp [ofDigits, digitValue_digitChar (by omega : m < 16)]
  | digit m k hk hm ih =>
    rw [← toDigits_append_toDigits hbase hm hk, ofDigits_append, ih,
      toDigits_of_lt_base hk]
    simp [digitValue_digitChar (by omega : k < 16)]

variable {c : Char}

theorem isHexDigit_of_mem_hexadecimal (hc : c ∈ hexadecimal n) :
    isHexDigit c = true := by
  unfold hexadecimal at hc
  induction n using base_induction 16 (by decide) with
  | single m hm =>
    rw [toDigits_of_lt_base hm, mem_singleton] at hc
    rw [hc]
    exact isHexDigit_digitChar hm
  | digit m k hk hm ih =>
    rw [← toDigits_append_toDigits (by decide) hm hk, mem_append] at hc
    rcases hc with hc | hc
    · exact ih hc
    · rw [toDigits_of_lt_base hk, mem_singleton] at hc
      rw [hc]
      exact isHexDigit_digitChar hk

theorem isDigit_of_mem_decimal (hc : c ∈ decimal n) : c.isDigit = true :=
  isDigit_of_mem_toDigits (by decide) (by decide) hc

theorem asciiDigits_decimal (n : ℕ) : asciiDigits (decimal n) = true := by
  unfold asciiDigits
  rw [Bool.and_eq_true, all_eq_true]
  exact ⟨by simp [decimal], fun c hc => isDigit_of_mem_decimal hc⟩

theorem ofDigits_decimal (n : ℕ) : ofDigits 10 (decimal n) = n :=
  ofDigits_toDigits (by decide) (by decide) n

theorem prefixFromPrefixString_decimal {maxPrefixlen : ℕ} (h : n ≤ maxPrefixlen) :
    prefixFromPrefixString maxPrefixlen (decimal n) = some n := by
  unfold prefixFromPrefixString
  rw [if_pos ⟨asciiDigits_decimal n, by rw [ofDigits_decimal]; exact h⟩, ofDigits_decimal]

/-! ## Integers of digits -/

/-- Digits of a base have fewer values than its power. -/
theorem accumulate_lt {base : ℕ} {xs : List ℕ} (h : ∀ x ∈ xs, x < base) :
    accumulate base xs < base ^ xs.length := by
  induction xs using List.reverseRecOn with
  | nil => simp [accumulate]
  | append_singleton xs x ih =>
    have hx : x < base := h x (by simp)
    have hxs := ih fun y hy => h y (by simp [hy])
    have hstep : accumulate base (xs ++ [x]) = accumulate base xs * base + x := by
      simp [accumulate]
    rw [hstep, length_append, length_singleton, pow_succ]
    calc
      accumulate base xs * base + x < (accumulate base xs + 1) * base := by
        rw [add_mul, one_mul]
        omega
      _ ≤ base ^ xs.length * base := mul_le_mul_right base hxs

/-! ## IPv4 -/

theorem parseOctet_decimal (h : n < 256) : parseOctet (decimal n) = some n := by
  have hall : ∀ m : Fin 256, parseOctet (decimal m) = some m.val := by decide +kernel
  exact hall ⟨n, h⟩

theorem accumulate_octets (h : n < 2 ^ 32) : accumulate 256 (octets n) = n := by
  simp only [accumulate, octets, foldl_cons, foldl_nil]
  omega

/-- An IPv4 address is read back. -/
theorem ipv4Int_ipv4Text (h : n < 2 ^ 32) : ipv4Int (ipv4Text n) = some n := by
  have hdots : ∀ text ∈ (octets n).map decimal, '.' ∉ text := by
    intro text htext hdot
    obtain ⟨octet, -, rfl⟩ := mem_map.mp htext
    exact absurd (isDigit_of_mem_decimal hdot) (by decide)
  have hsplit : (ipv4Text n).splitOn '.' = (octets n).map decimal :=
    splitOn_intercalate '.' hdots (by simp [octets])
  have hparse : ((octets n).map decimal).mapM parseOctet = some (octets n) := by
    have hlt : ∀ m, m % 256 < 256 := fun m => mod_lt m (by decide)
    simp [octets, parseOctet_decimal, hlt]
  unfold ipv4Int
  rw [hsplit]
  simp only [length_map]
  rw [if_neg (by simp [octets]), hparse, Option.map_some, accumulate_octets h]

/-! ## IPv6 -/

theorem parseHextet_hexadecimal (h : n < 65536) :
    parseHextet (hexadecimal n) = some n := by
  have hlength : (hexadecimal n).length ≤ 4 :=
    (length_toDigits_le_iff (by decide) (by decide)).mpr h
  have hall : (hexadecimal n).all isHexDigit = true :=
    all_eq_true.mpr fun c hc => isHexDigit_of_mem_hexadecimal hc
  unfold parseHextet
  rw [if_neg ?_, hexadecimal, ofDigits_toDigits (by decide) (by decide)]
  rintro (hnil | hhex | hlong)
  · exact toDigits_ne_nil hnil
  · rw [hall] at hhex
    cases hhex
  · omega

/-- The texts of hextets. -/
def Hextets (texts : List Text) (values : List ℕ) : Prop := texts.mapM parseHextet = some values

theorem hextets_map {values : List ℕ} (h : ∀ value ∈ values, value < 65536) :
    Hextets (values.map hexadecimal) values := by
  unfold Hextets
  induction values with
  | nil => rfl
  | cons value values ih =>
    rw [map_cons, mapM_cons, parseHextet_hexadecimal (h value (by simp)),
      ih fun v hv => h v (by simp [hv])]
    rfl

/-- The runs of zeros that a scan has found. -/
structure Runs.Found (runs : Runs) (hextets : List Text) : Prop where
  best : ∀ i, runs.bestStart ≤ i → i < runs.bestStart + runs.bestLength →
    hextets[i]? = some ['0']
  bestStop : runs.bestStart + runs.bestLength ≤ hextets.length
  current : ∀ i, runs.start ≤ i → i < hextets.length → 0 < runs.length → hextets[i]? = some ['0']
  stop : 0 < runs.length → runs.start + runs.length = hextets.length

theorem scanRuns_found {runs : Runs} {before rest : List Text} (h : runs.Found before) :
    (scanRuns runs before.length rest).Found (before ++ rest) := by
  induction rest generalizing runs before with
  | nil => simpa [scanRuns] using h
  | cons hextet rest ih =>
    have hassoc : before ++ hextet :: rest = (before ++ [hextet]) ++ rest := by simp
    have hlength : before.length + 1 = (before ++ [hextet]).length := by simp
    have hbest : ∀ i, runs.bestStart ≤ i → i < runs.bestStart + runs.bestLength →
        (before ++ [hextet])[i]? = some ['0'] := by
      intro i hle hlt
      have hstop := h.bestStop
      rw [getElem?_append_left (by omega)]
      exact h.best i hle hlt
    have hbestStop : runs.bestStart + runs.bestLength ≤ (before ++ [hextet]).length := by
      have hstop := h.bestStop
      omega
    rw [hassoc]
    unfold scanRuns
    rw [hlength]
    split
    · rename_i hzero
      subst hzero
      -- the current run goes on, or starts here
      have hcurrent : ∀ i, (if runs.length = 0 then before.length else runs.start) ≤ i →
          i < (before ++ [['0']]).length → (before ++ [['0']])[i]? = some ['0'] := by
        intro i hle hlt
        rw [length_append, length_singleton] at hlt
        rcases lt_or_ge i before.length with hlt' | hge
        · rw [getElem?_append_left hlt']
          split at hle
          · omega
          · exact h.current i hle hlt' (by omega)
        · obtain rfl : i = before.length := by omega
          simp
      have hstop : (if runs.length = 0 then before.length else runs.start) + (runs.length + 1) =
          (before ++ [['0']]).length := by
        rw [length_append, length_singleton]
        split
        · omega
        · have hstop := h.stop (by omega)
          omega
      dsimp only
      split
      · refine ih ⟨fun i hle hlt => hcurrent i hle ?_, ?_, fun i hle hlt _ => hcurrent i hle hlt,
          fun _ => hstop⟩
        · dsimp only at hlt
          omega
        · dsimp only
          omega
      · exact ih ⟨hbest, hbestStop, fun i hle hlt _ => hcurrent i hle hlt, fun _ => hstop⟩
    · exact ih ⟨hbest, hbestStop, fun _ _ _ hpos => absurd hpos (lt_irrefl 0),
        fun hpos => absurd hpos (lt_irrefl 0)⟩

/-- Compression leaves out one run of zeros, or nothing. -/
theorem compressHextets_cases (hextets : List Text) : compressHextets hextets = hextets ∨
    ∃ high low zeros, hextets = high ++ List.replicate zeros ['0'] ++ low ∧ 0 < zeros ∧
      compressHextets hextets =
        (if high = [] then [[]] else []) ++ high ++ [[]] ++ low ++
          (if low = [] then [[]] else []) := by
  have hfound : (scanRuns ⟨0, 0, 0, 0⟩ 0 hextets).Found hextets :=
    scanRuns_found (show Runs.Found ⟨0, 0, 0, 0⟩ [] from
      ⟨fun i _ hlt => absurd hlt (not_lt_zero i), le_refl 0,
        fun i _ hlt _ => absurd hlt (not_lt_zero i), fun hpos => absurd hpos (lt_irrefl 0)⟩)
  unfold compressHextets
  dsimp only
  split
  · right
    generalize scanRuns ⟨0, 0, 0, 0⟩ 0 hextets = runs at *
    have hstop := hfound.bestStop
    refine ⟨hextets.take runs.bestStart, hextets.drop (runs.bestStart + runs.bestLength),
      runs.bestLength, ?_, by omega, ?_⟩
    · have hzeros : (hextets.drop runs.bestStart).take runs.bestLength =
          List.replicate runs.bestLength ['0'] := by
        refine eq_replicate_iff.mpr ⟨?_, fun hextet hmem => ?_⟩
        · rw [length_take, length_drop]
          omega
        · obtain ⟨i, hi⟩ := mem_iff_getElem?.mp hmem
          rw [getElem?_take] at hi
          split at hi
          · rename_i hlt
            rw [getElem?_drop, hfound.best _ (by omega) (by omega)] at hi
            exact (Option.some.inj hi).symm
          · cases hi
      calc
        hextets = hextets.take runs.bestStart ++ hextets.drop runs.bestStart :=
          (take_append_drop _ _).symm
        _ = hextets.take runs.bestStart ++ ((hextets.drop runs.bestStart).take runs.bestLength ++
            (hextets.drop runs.bestStart).drop runs.bestLength) :=
          congrArg _ (take_append_drop _ _).symm
        _ = _ := by
          rw [hzeros, drop_drop, append_assoc]
    · have hhigh : hextets.take runs.bestStart = [] ↔ runs.bestStart = 0 := by
        rw [take_eq_nil_iff]
        refine ⟨fun h => h.resolve_right fun hnil => ?_, .inl⟩
        rw [hnil, length_nil] at hstop
        omega
      have hlow : hextets.drop (runs.bestStart + runs.bestLength) = [] ↔
          runs.bestStart + runs.bestLength = hextets.length := by
        rw [drop_eq_nil_iff]
        omega
      have hle : runs.bestStart ≤ hextets.length := by omega
      simp only [hhigh, hlow]
      by_cases hend : runs.bestStart + runs.bestLength = hextets.length
      · rw [if_pos hend, if_pos hend, take_append_of_le_length hle,
          drop_append_of_le_length hstop]
        split
        · simp
        · simp
      · rw [if_neg hend, if_neg hend]
        split
        · simp
        · simp
  · exact .inl rfl

/-! ### Parts -/

theorem Hextets.nil_notMem {texts : List Text} {values : List ℕ} (h : Hextets texts values) :
    [] ∉ texts := by
  induction texts generalizing values with
  | nil => exact not_mem_nil
  | cons text texts ih =>
    unfold Hextets at h
    rw [mapM_cons] at h
    obtain ⟨value, hvalue, hrest⟩ := Option.bind_eq_some_iff.mp h
    obtain ⟨rest, hrest, -⟩ := Option.bind_eq_some_iff.mp hrest
    rw [mem_cons, not_or]
    refine ⟨fun hnil => ?_, ih hrest⟩
    rw [← hnil] at hvalue
    cases hvalue

theorem hextetsInt_ends {high low : List Text} {above below : List ℕ} (hhigh : Hextets high above)
    (hlow : Hextets low below) (inner : List Text) (skipped : ℕ) :
    hextetsInt (high ++ inner ++ low) high.length low.length skipped =
      some (accumulate 65536 (above ++ List.replicate skipped 0 ++ below)) := by
  have htake : (high ++ inner ++ low).take high.length = high := by
    rw [append_assoc, take_left]
  have hdrop : (high ++ inner ++ low).drop ((high ++ inner ++ low).length - low.length) = low := by
    rw [show (high ++ inner ++ low).length - low.length = (high ++ inner).length by
      simp only [length_append]; omega, drop_left]
  unfold Hextets at hhigh hlow
  unfold hextetsInt
  rw [htake, hdrop, hhigh, hlow]
  rfl

/-- The parts around `::`. -/
theorem partsInt_skip {first last : Text} {xs ys : List Text} (hxs : [] ∉ xs) (hys : [] ∉ ys)
    (hfirst : first = [] → xs = []) (hlast : last = [] → ys = [])
    (hlength : (if first = [] then 0 else xs.length + 1) +
      (if last = [] then 0 else ys.length + 1) < 8) :
    partsInt (first :: (xs ++ [] :: ys ++ [last])) =
      hextetsInt (first :: (xs ++ [] :: ys ++ [last])) (if first = [] then 0 else xs.length + 1)
        (if last = [] then 0 else ys.length + 1)
        (8 - ((if first = [] then 0 else xs.length + 1) +
          (if last = [] then 0 else ys.length + 1))) := by
  have hinner : (first :: (xs ++ [] :: ys ++ [last])).tail.dropLast = xs ++ [] :: ys := by
    rw [tail_cons, dropLast_concat]
  have hcount : (xs ++ [] :: ys).count [] = 1 := by
    rw [count_append, count_cons_self, count_eq_zero_of_not_mem hxs,
      count_eq_zero_of_not_mem hys]
  have hindex : (xs ++ [] :: ys).idxOf [] = xs.length := by
    rw [idxOf_append_of_notMem hxs, idxOf_cons_self, add_zero]
  have hparts : (first :: (xs ++ [] :: ys ++ [last])).length = xs.length + ys.length + 3 := by
    simp only [length_cons, length_append, length_nil]
    omega
  have hend : (first :: (xs ++ [] :: ys ++ [last])).getLast?.getD [] = last := by
    rw [← cons_append, getLast?_concat, Option.getD_some]
  unfold partsInt
  simp only [hinner, hcount, hindex, hparts, hend, head?_cons, Option.getD_some]
  by_cases hf : first = []
  · obtain rfl := hfirst hf
    by_cases hl : last = []
    · obtain rfl := hlast hl
      simp [hf, hl]
    · simp only [if_pos hf, if_neg hl] at hlength ⊢
      rw [if_neg (by simp only [length_nil] at *; omega), if_pos trivial,
        if_neg (by simp [hl]), if_neg (by simp only [length_nil] at *; omega)]
      congr 1 <;> simp
  · by_cases hl : last = []
    · obtain rfl := hlast hl
      simp only [if_neg hf, if_pos hl] at hlength ⊢
      rw [if_neg (by simp only [length_nil] at *; omega), if_pos trivial,
        if_neg (by simp [hf]), if_neg (by simp only [length_nil] at *; omega)]
      congr 1 <;> simp
    · simp only [if_neg hf, if_neg hl] at hlength ⊢
      rw [if_neg (by omega), if_pos trivial, if_neg (by simp [hf, hl]), if_neg (by omega)]
      congr 1 <;> omega

/-- The parts of a compressed address. -/
theorem partsInt_compressed {high low : List Text} {above below : List ℕ}
    (hhigh : Hextets high above) (hlow : Hextets low below)
    (hlength : high.length + low.length < 8) :
    partsInt ((if high = [] then [[]] else []) ++ high ++ [[]] ++ low ++
      (if low = [] then [[]] else [])) =
      some (accumulate 65536
        (above ++ List.replicate (8 - (high.length + low.length)) 0 ++ below)) := by
  have hhigh' := hhigh.nil_notMem
  have hlow' := hlow.nil_notMem
  rcases high with _ | ⟨first, high⟩
  · rcases eq_nil_or_concat' low with rfl | ⟨init, last, rfl⟩
    · cases Option.some.inj hhigh
      cases Option.some.inj hlow
      decide
    · have hcount : ([] : Text) ∉ init := fun h => hlow' (by simp [h])
      have hlast : last ≠ [] := fun h => hlow' (by simp [h])
      have hskip : partsInt ([] :: ([] ++ [] :: init ++ [last])) = _ :=
        partsInt_skip not_mem_nil hcount (fun _ => rfl) (fun h => absurd h hlast)
          (by simpa [hlast] using hlength)
      have hends := hextetsInt_ends hhigh hlow [[], []] (8 - (0 + (init.length + 1)))
      simp only [if_neg hlast] at hskip
      simpa using hskip.trans (by simpa using hends)
  · have hfirst : first ≠ [] := fun h => hhigh' (by simp [h])
    have hcount' : ([] : Text) ∉ high := fun h => hhigh' (by simp [h])
    rcases eq_nil_or_concat' low with rfl | ⟨init, last, rfl⟩
    · have hskip : partsInt (first :: (high ++ [] :: [] ++ [[]])) = _ :=
        partsInt_skip hcount' not_mem_nil (fun h => absurd h hfirst) (fun _ => rfl)
          (by simpa [hfirst] using hlength)
      have hends := hextetsInt_ends hhigh hlow [[], []] (8 - (high.length + 1 + 0))
      simp only [if_neg hfirst] at hskip
      simpa using hskip.trans (by simpa using hends)
    · have hcount : ([] : Text) ∉ init := fun h => hlow' (by simp [h])
      have hlast : last ≠ [] := fun h => hlow' (by simp [h])
      have hskip : partsInt (first :: (high ++ [] :: init ++ [last])) = _ :=
        partsInt_skip hcount' hcount (fun h => absurd h hfirst) (fun h => absurd h hlast)
          (by simpa [hfirst, hlast] using hlength)
      have hends := hextetsInt_ends hhigh hlow [[]] (8 - (high.length + 1 + (init.length + 1)))
      simp only [if_neg hfirst, if_neg hlast] at hskip
      simpa using hskip.trans (by simpa using hends)

/-! ### Texts -/

theorem mem_intercalate {separator : Char} {texts : List Text}
    (h : c ∈ [separator].intercalate texts) : c = separator ∨ ∃ text ∈ texts, c ∈ text := by
  rw [← mem_singleton]
  exact Texts.mem_of_mem_intercalate h

theorem isDigit_or_dot_of_mem_ipv4Text (hc : c ∈ ipv4Text n) :
    c.isDigit = true ∨ c = '.' := by
  rcases mem_intercalate hc with rfl | ⟨text, htext, hc⟩
  · exact .inr rfl
  · obtain ⟨octet, -, rfl⟩ := mem_map.mp htext
    exact .inl (isDigit_of_mem_decimal hc)

theorem mem_compressHextets {hextets : List Text} {text : Text}
    (h : text ∈ compressHextets hextets) : text = [] ∨ text ∈ hextets := by
  rcases compressHextets_cases hextets with heq | ⟨high, low, zeros, heq, -, hcompressed⟩
  · rw [heq] at h
    exact .inr h
  · rw [hcompressed] at h
    rw [heq]
    simp only [mem_append, mem_singleton] at h ⊢
    rcases h with (((h | h) | h) | h) | h
    · split at h <;> simp_all
    · exact .inr (.inl (.inl h))
    · exact .inl h
    · exact .inr (.inr h)
    · split at h <;> simp_all

theorem isHexDigit_or_colon_of_mem_ipv6IntText (hc : c ∈ ipv6IntText n) :
    isHexDigit c = true ∨ c = ':' := by
  rcases mem_intercalate hc with rfl | ⟨text, htext, hc⟩
  · exact .inr rfl
  · rcases mem_compressHextets htext with rfl | htext
    · cases hc
    · obtain ⟨hextet, -, rfl⟩ := mem_map.mp htext
      exact .inl (isHexDigit_of_mem_hexadecimal hc)

/-! ### Addresses -/

theorem accumulate_hextets (h : n < 2 ^ 128) : accumulate 65536 (hextets n) = n := by
  simp only [accumulate, hextets, foldl_cons, foldl_nil]
  omega

theorem hextets_lt {value : ℕ} (h : value ∈ hextets n) : value < 65536 := by
  simp only [hextets, mem_cons, not_mem_nil, or_false] at h
  omega

/-- Eight parts and no `::`. -/
theorem partsInt_full {parts : List Text} {values : List ℕ} (h : Hextets parts values)
    (hlength : parts.length = 8) : partsInt parts = some (accumulate 65536 values) := by
  have hnil := h.nil_notMem
  have hinner : parts.tail.dropLast.count [] = 0 :=
    count_eq_zero_of_not_mem fun hmem =>
      hnil (mem_of_mem_tail (dropLast_subset _ hmem))
  have hfirst : parts.head?.getD [] ≠ [] := by
    rcases parts with _ | ⟨first, rest⟩
    · cases hlength
    · exact fun hfirst => hnil (by simp [show first = [] from hfirst])
  have hlast : parts.getLast?.getD [] ≠ [] := by
    rcases eq_nil_or_concat' parts with rfl | ⟨init, last, rfl⟩
    · cases hlength
    · rw [getLast?_concat, Option.getD_some]
      exact fun hlast => hnil (by simp [hlast])
  have hends := hextetsInt_ends h (show Hextets [] [] from rfl) [] 0
  unfold partsInt
  simp only [hinner, hlength]
  rw [if_neg (by omega), if_neg (by omega), if_neg (by simp [hfirst, hlast])]
  simpa [hlength] using hends

/-- The hextets of an address are read back. -/
theorem partsInt_compressHextets (h : n < 2 ^ 128) :
    partsInt (compressHextets ((hextets n).map hexadecimal)) = some n := by
  have hvalues := hextets_map fun value hvalue => hextets_lt (n := n) hvalue
  rcases compressHextets_cases ((hextets n).map hexadecimal) with
    heq | ⟨high, low, zeros, heq, hpos, hcompressed⟩
  · rw [heq, partsInt_full hvalues (by simp [hextets]), accumulate_hextets h]
  · obtain ⟨front, below, hfront, hhigh, rfl⟩ := map_eq_append_iff.mp heq
    obtain ⟨above, middle, rfl, rfl, hzeros⟩ := map_eq_append_iff.mp hhigh
    have hmiddle : middle = List.replicate zeros 0 := by
      refine eq_replicate_iff.mpr ⟨?_, fun value hvalue => ?_⟩
      · rw [← length_map (f := hexadecimal), hzeros, length_replicate]
      · have htext : hexadecimal value ∈ List.replicate zeros ['0'] := by
          rw [← hzeros]
          exact mem_map_of_mem hvalue
        have hzero := (mem_replicate.mp htext).2
        have hback := ofDigits_toDigits (show 1 < 16 by decide) (by decide) value
        rw [show Nat.toDigits 16 value = ['0'] from hzero] at hback
        exact hback.symm
    have hlength : above.length + zeros + below.length = 8 := by
      have hall := congrArg List.length hfront
      rw [hmiddle] at hall
      simp only [hextets, length_append, length_replicate, length_cons,
        length_nil] at hall
      omega
    have hlt : ∀ value ∈ above ++ middle ++ below, value < 65536 := by
      rw [← hfront]
      exact fun value hvalue => hextets_lt hvalue
    rw [hcompressed, partsInt_compressed
      (hextets_map fun value hvalue => hlt value (by simp [hvalue]))
      (hextets_map fun value hvalue => hlt value (by simp [hvalue]))
      (by simp only [length_map]; omega)]
    simp only [length_map]
    rw [show 8 - (above.length + below.length) = zeros by omega, ← hmiddle, ← hfront,
      accumulate_hextets h]

theorem length_compressHextets (n : ℕ) :
    3 ≤ (compressHextets ((hextets n).map hexadecimal)).length := by
  rcases compressHextets_cases ((hextets n).map hexadecimal) with
    heq | ⟨high, low, zeros, -, -, hcompressed⟩
  · rw [heq]
    simp [hextets]
  · rw [hcompressed]
    rcases high with _ | ⟨first, high⟩ <;> rcases low with _ | ⟨last, low⟩ <;> simp <;> omega

theorem colon_notMem_compressHextets :
    ∀ text ∈ compressHextets ((hextets n).map hexadecimal), ':' ∉ text := by
  intro text htext hcolon
  rcases mem_compressHextets htext with rfl | htext
  · cases hcolon
  · obtain ⟨hextet, -, rfl⟩ := mem_map.mp htext
    exact absurd (isHexDigit_of_mem_hexadecimal hcolon) (by decide)

theorem dot_notMem_compressHextets :
    ∀ text ∈ compressHextets ((hextets n).map hexadecimal), '.' ∉ text := by
  intro text htext hdot
  rcases mem_compressHextets htext with rfl | htext
  · cases hdot
  · obtain ⟨hextet, -, rfl⟩ := mem_map.mp htext
    exact absurd (isHexDigit_of_mem_hexadecimal hdot) (by decide)

/-- The text without an IPv4 suffix is read back. -/
theorem ipv6Int_ipv6IntText (h : n < 2 ^ 128) : ipv6Int (ipv6IntText n) = some n := by
  have hlength := length_compressHextets n
  have hsplit : (ipv6IntText n).splitOn ':' = compressHextets ((hextets n).map hexadecimal) :=
    splitOn_intercalate ':' colon_notMem_compressHextets
      (fun hnil => by rw [hnil] at hlength; simp at hlength)
  have hsuffix : ipv4Suffix (compressHextets ((hextets n).map hexadecimal)) =
      some (compressHextets ((hextets n).map hexadecimal)) := by
    unfold ipv4Suffix
    refine if_neg fun hdot => ?_
    cases hlast : (compressHextets ((hextets n).map hexadecimal)).getLast? with
    | none =>
      rw [hlast] at hdot
      cases hdot
    | some last =>
      rw [hlast] at hdot
      exact dot_notMem_compressHextets last (mem_of_getLast? hlast) hdot
  unfold ipv6Int
  simp only [hsplit]
  rw [if_neg (by omega), hsuffix, Option.bind_some, partsInt_compressHextets h]

/-- An IPv4-mapped address is read back. -/
theorem ipv6Int_mapped {m : ℕ} (h : m < 2 ^ 32) :
    ipv6Int (ipv6IntText 0xffff ++ ':' :: ipv4Text m) = some (0xffff * 2 ^ 32 + m) := by
  have htext : ipv6IntText 0xffff ++ ':' :: ipv4Text m =
      [':'].intercalate [[], [], hexadecimal 0xffff, ipv4Text m] := by
    rw [show ipv6IntText 0xffff = [':'].intercalate [[], [], hexadecimal 0xffff] by decide]
    simp [intercalate_cons_cons]
  have hcolon : ∀ text ∈ [[], [], hexadecimal 0xffff, ipv4Text m], ':' ∉ text := by
    intro text htext hcolon
    simp only [mem_cons, not_mem_nil, or_false] at htext
    rcases htext with rfl | rfl | rfl | rfl
    · cases hcolon
    · cases hcolon
    · exact absurd (isHexDigit_of_mem_hexadecimal hcolon) (by decide)
    · rcases isDigit_or_dot_of_mem_ipv4Text hcolon with h | h
      · exact absurd h (by decide)
      · exact absurd h (by decide)
  have hdot : '.' ∈ ipv4Text m := by
    simp [ipv4Text, octets, intercalate_cons_cons]
  have hparts : partsInt [[], [], hexadecimal 0xffff, hexadecimal (m / 65536 % 65536),
      hexadecimal (m % 65536)] = some (0xffff * 2 ^ 32 + m) := by
    have hlow : Hextets ([0xffff, m / 65536 % 65536, m % 65536].map hexadecimal) _ :=
      hextets_map (by simp; omega)
    refine (partsInt_compressed (show Hextets [] [] from rfl) hlow (by simp)).trans ?_
    simp [accumulate, List.replicate]
    omega
  unfold ipv6Int
  simp only [htext]
  rw [splitOn_intercalate ':' hcolon (by simp), if_neg (by simp)]
  simp only [ipv4Suffix, getLast?_cons_cons, getLast?_singleton, Option.getD_some]
  rw [if_pos hdot, ipv4Int_ipv4Text h, Option.map_some, Option.bind_some]
  exact hparts

/-- An IPv6 address is read back. -/
theorem ipv6Int_ipv6Text (h : n < 2 ^ 128) : ipv6Int (ipv6Text n) = some n := by
  unfold ipv6Text
  split
  · rename_i hmapped
    rw [hmapped, ipv6Int_mapped (mod_lt n (by decide))]
    congr 1
    omega
  · exact ipv6Int_ipv6IntText h

end Preseed.Ipaddress
