import PersonalLedger.Proofs.Text.Order

namespace PersonalLedger.Text

def bytes (s : String) : List UInt8 := s.toUTF8.toList

theorem toList_loop (bs : ByteArray) (i : Nat) (read : List UInt8) :
    ByteArray.toList.loop bs i read = read.reverse ++ bs.data.toList.drop i := by
  fun_induction ByteArray.toList.loop bs i read with
  | case1 i read hi ih =>
    have hl : i < bs.data.toList.length := hi
    have hg : bs.get! i = bs.data.toList[i] := by
      rw [ByteArray.get!, getElem!_pos bs.data i hi, Array.getElem_toList]
    rw [ih, List.reverse_cons, List.append_assoc, List.singleton_append, hg,
      List.getElem_cons_drop]
  | case2 i read hi =>
    have hl : bs.data.toList.length ≤ i := Nat.not_lt.1 hi
    rw [List.drop_eq_nil_of_le hl, List.append_nil]

theorem bytes_ofList (cs : List Char) :
    bytes (String.ofList cs) = cs.flatMap String.utf8EncodeChar := by
  rw [bytes, String.toUTF8_eq_toByteArray, String.toByteArray_ofList, List.utf8Encode,
    ByteArray.toList, toList_loop, List.data_toByteArray]
  rfl

/-- Whether larger numbers below `n` make later bytes, whatever follows them. -/
def Rising (n : Nat) (f : Nat → List UInt8) : Prop :=
  ∀ v w, v < w → w < n → ∀ x y, f v ++ x < f w ++ y

theorem ofNat_lt_ofNat {m n : Nat} (h : m < n) (hn : n < 256) : UInt8.ofNat m < UInt8.ofNat n := by
  rw [UInt8.lt_iff_toNat_lt, UInt8.toNat_ofNat_of_lt' (Nat.lt_trans h hn),
    UInt8.toNat_ofNat_of_lt' hn]
  exact h

theorem head_lt {m n : Nat} (h : m < n) (hn : n < 256) (x y : List UInt8) :
    UInt8.ofNat m :: x < UInt8.ofNat n :: y :=
  List.cons_lt_cons_iff.2 (.inl (ofNat_lt_ofNat h hn))

theorem rising_head {n base : Nat} (h : n + base ≤ 256) :
    Rising n fun v => [UInt8.ofNat (v % n + base)] := by
  intro v w hvw hw x y
  apply head_lt
  · rw [Nat.mod_eq_of_lt hw, Nat.mod_eq_of_lt (Nat.lt_trans hvw hw)]
    omega
  · have := Nat.mod_lt w (Nat.zero_lt_of_lt hw)
    omega

theorem Rising.continued {n : Nat} {f : Nat → List UInt8} (h : Rising n f) :
    Rising (64 * n) fun v => f (v / 64) ++ [UInt8.ofNat (v % 64 + 128)] := by
  intro v w hvw hw x y
  rw [List.append_assoc, List.append_assoc]
  by_cases hq : v / 64 = w / 64
  · have hr : v % 64 + 128 < w % 64 + 128 := by omega
    rw [hq, append_lt_append_iff rfl]
    exact .inr ⟨rfl, head_lt hr (by omega) x y⟩
  · exact h _ _ (by omega) (by omega) _ _

/-- Bytes made in one way up to a number and in another behind it rise, if the other way makes later
bytes. -/
theorem Rising.ite {k n : Nat} {f g : Nat → List UInt8} (hf : Rising (k + 1) f) (hg : Rising n g)
    (h : ∀ v w, v ≤ k → k < w → w < n → ∀ x y, f v ++ x < g w ++ y) :
    Rising n fun v => if v ≤ k then f v else g v := by
  intro v w hvw hw x y
  by_cases hwk : w ≤ k
  · have hvk : v ≤ k := by omega
    simp only [if_pos hvk, if_pos hwk]
    exact hf v w hvw (Nat.lt_succ_of_le hwk) x y
  · simp only [if_neg hwk]
    by_cases hvk : v ≤ k
    · simp only [if_pos hvk]
      exact h v w hvk (Nat.not_le.1 hwk) hw x y
    · simp only [if_neg hvk]
      exact hg v w hvw hw x y

theorem rising_one : Rising 128 fun v => [UInt8.ofNat v] := by
  intro v w hvw hw x y
  exact head_lt hvw (by omega) x y

theorem rising_two :
    Rising 2048 fun v => [UInt8.ofNat (v / 64 % 32 + 192), UInt8.ofNat (v % 64 + 128)] :=
  (rising_head (by decide : 32 + 192 ≤ 256)).continued

theorem rising_three :
    Rising 65536 fun v => [UInt8.ofNat (v / 4096 % 16 + 224), UInt8.ofNat (v / 64 % 64 + 128),
      UInt8.ofNat (v % 64 + 128)] := by
  have h := (rising_head (by decide : 16 + 224 ≤ 256)).continued.continued
  simp only [Nat.div_div_eq_div_mul] at h
  exact h

theorem rising_four :
    Rising 2097152 fun v => [UInt8.ofNat (v / 262144 % 8 + 240), UInt8.ofNat (v / 4096 % 64 + 128),
      UInt8.ofNat (v / 64 % 64 + 128), UInt8.ofNat (v % 64 + 128)] := by
  have h := (rising_head (by decide : 8 + 240 ≤ 256)).continued.continued.continued
  simp only [Nat.div_div_eq_div_mul] at h
  exact h

theorem toNat_lt (c : Char) : c.toNat < 1114112 := by
  rcases c.valid with h | ⟨-, h⟩
  · exact Nat.lt_trans h (by decide)
  · exact h

theorem utf8EncodeChar_lt {c d : Char} (h : c < d) (x y : List UInt8) :
    String.utf8EncodeChar c ++ x < String.utf8EncodeChar d ++ y := by
  -- More bytes have a larger first byte; as many are compared by the bits in them.
  have hthree := rising_three.ite rising_four (by
    intro v w hv hvw hw x y
    exact head_lt (by omega) (by omega) _ _)
  have htwo := rising_two.ite hthree (by
    intro v w hv hvw hw x y
    split_ifs <;> exact head_lt (by omega) (by omega) _ _)
  have hone := rising_one.ite htwo (by
    intro v w hv hvw hw x y
    split_ifs <;> exact head_lt (by omega) (by omega) _ _)
  have hd : d.val.toNat < 2097152 := Nat.lt_trans (toNat_lt d) (by decide)
  exact hone c.val.toNat d.val.toNat h hd x y

theorem utf8EncodeChar_of_ascii {c : Char} (h : c.toNat < 128) :
    String.utf8EncodeChar c = [UInt8.ofNat c.toNat] := by
  have h : c.val.toNat ≤ 127 := Nat.le_of_lt_succ h
  simp only [String.utf8EncodeChar, if_pos h]
  rfl

theorem flatMap_utf8EncodeChar_lt {cs ds : List Char} (h : cs < ds) :
    cs.flatMap String.utf8EncodeChar < ds.flatMap String.utf8EncodeChar := by
  induction cs generalizing ds with
  | nil =>
    cases ds with
    | nil => exact absurd h (List.lt_irrefl _)
    | cons d ds =>
      cases hd : String.utf8EncodeChar d with
      | nil => exact absurd hd String.utf8EncodeChar_ne_nil
      | cons b bs =>
        rw [List.flatMap_cons, hd]
        exact List.nil_lt_cons _ _
  | cons c cs ih =>
    cases ds with
    | nil => exact absurd h (List.not_lt_nil _)
    | cons d ds =>
      rw [List.flatMap_cons, List.flatMap_cons]
      rcases List.cons_lt_cons_iff.1 h with hlt | ⟨rfl, hlt⟩
      · exact utf8EncodeChar_lt hlt _ _
      · rw [append_lt_append_iff rfl]
        exact .inr ⟨rfl, ih hlt⟩

theorem bytes_lt_of_lt {s t : String} (h : s < t) : bytes s < bytes t := by
  have hl : s.toList < t.toList := h
  rw [← String.ofList_toList (s := s), ← String.ofList_toList (s := t), bytes_ofList, bytes_ofList]
  exact flatMap_utf8EncodeChar_lt hl

theorem bytes_lt_iff {s t : String} : bytes s < bytes t ↔ s < t := by
  constructor
  · intro h
    rcases lt_or_eq_or_gt s t with hlt | rfl | hgt
    · exact hlt
    · exact absurd h (List.lt_irrefl _)
    · exact absurd (bytes_lt_of_lt hgt) (List.lt_asymm h)
  · exact bytes_lt_of_lt

theorem bytes_inj {s t : String} : bytes s = bytes t ↔ s = t := by
  constructor
  · intro h
    rcases lt_or_eq_or_gt s t with hlt | he | hgt
    · exact absurd (bytes_lt_of_lt hlt) (h ▸ List.lt_irrefl _)
    · exact he
    · exact absurd (bytes_lt_of_lt hgt) (h ▸ List.lt_irrefl _)
  · exact congrArg bytes

theorem mem_bytes_of_mem {s : String} {c : Char} (hc : c.toNat < 128) (h : c ∈ s.toList) :
    UInt8.ofNat c.toNat ∈ bytes s := by
  rw [← String.ofList_toList (s := s), bytes_ofList]
  refine List.mem_flatMap.2 ⟨c, h, ?_⟩
  rw [utf8EncodeChar_of_ascii hc]
  exact List.mem_singleton_self _

theorem length_bytes_ofList {cs : List Char} (h : ∀ c ∈ cs, c.toNat < 128) :
    (bytes (String.ofList cs)).length = cs.length := by
  rw [bytes_ofList]
  induction cs with
  | nil => rfl
  | cons c cs ih =>
    rw [List.flatMap_cons, List.length_append, utf8EncodeChar_of_ascii (h c List.mem_cons_self),
      ih fun d hd => h d (List.mem_cons_of_mem c hd), List.length_singleton, List.length_cons,
      Nat.add_comm]

end PersonalLedger.Text
