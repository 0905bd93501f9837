import ModuleScaffold.Text.Character
import ModuleScaffold.Text.Split

/-! # Lower case

Letters in lower case are letters, so that putting a text into lower case twice is the same as once, and marks stay
where they are. -/

namespace ModuleScaffold.Text

theorem lowerChar_of_upper {c : Char} (h : ('A' ≤ c && c ≤ 'Z') = true) :
    lowerChar c ∈ (List.range' 65 26).map fun n => Char.ofNat (n + 32) := by
  have hbounds : 65 ≤ c.toNat ∧ c.toNat ≤ 90 := by
    simp only [Bool.and_eq_true, decide_eq_true_eq] at h
    exact ⟨h.1, h.2⟩
  rw [lowerChar, if_pos h, List.mem_map]
  exact ⟨c.toNat, List.mem_range'_1.mpr (by omega), rfl⟩

/-- What holds of every small letter holds of a capital one in lower case. -/
theorem of_lowerChar {p : Char → Bool} (hp : ((List.range' 65 26).map fun n => Char.ofNat (n + 32)).all p = true) {c : Char}
    (h : ('A' ≤ c && c ≤ 'Z') = true) : p (lowerChar c) = true :=
  List.all_eq_true.mp hp _ (lowerChar_of_upper h)

theorem lowerChar_of_not_upper {c : Char} (h : ¬('A' ≤ c && c ≤ 'Z') = true) : lowerChar c = c := if_neg h

theorem lowerChar_lowerChar (c : Char) : lowerChar (lowerChar c) = lowerChar c := by
  by_cases h : ('A' ≤ c && c ≤ 'Z') = true
  · exact beq_iff_eq.mp (of_lowerChar (p := fun d => lowerChar d == d) (by rfl) h)
  · rw [lowerChar_of_not_upper h, lowerChar_of_not_upper h]

theorem map_lowerChar_twice (s : List Char) : (s.map lowerChar).map lowerChar = s.map lowerChar := by
  rw [List.map_map]
  exact List.map_congr_left fun c _ => lowerChar_lowerChar c

theorem lower_lower (s : String) : lower (lower s) = lower s := by
  rw [lower, lower, String.toList_ofList, map_lowerChar_twice]

theorem lower_ofList_map (s : List Char) : lower (String.ofList (s.map lowerChar)) = lower (String.ofList s) := by
  rw [lower, lower, String.toList_ofList, String.toList_ofList, map_lowerChar_twice]

theorem lowerChar_eq_mark_iff {mark : Char} (hm : isLetter mark = false) (c : Char) : lowerChar c = mark ↔ c = mark := by
  by_cases h : ('A' ≤ c && c ≤ 'Z') = true
  · have hlower := of_lowerChar (p := isLetter) (by rfl) h
    have hupper : isLetter c = true := by rw [isLetter, h, Bool.or_true]
    constructor <;> rintro rfl
    · rw [hlower] at hm
      cases hm
    · rw [hupper] at hm
      cases hm
  · rw [lowerChar_of_not_upper h]

theorem splitAt?_map_lowerChar {mark : Char} (hm : isLetter mark = false) (s : List Char) :
    splitAt? mark (s.map lowerChar) = (splitAt? mark s).map fun p => (p.1.map lowerChar, p.2.map lowerChar) := by
  induction s with
  | nil => rfl
  | cons c s ih =>
    rw [List.map_cons, splitAt?, splitAt?]
    by_cases hc : c = mark
    · rw [if_pos hc, if_pos ((lowerChar_eq_mark_iff hm c).mpr hc)]
      rfl
    · rw [if_neg hc, if_neg (mt (lowerChar_eq_mark_iff hm c).mp hc), ih, Option.map_map, Option.map_map]
      rfl

end ModuleScaffold.Text
