import Sm8650.Rmnet.FragData
import Sm8650.Rmnet.Frames

/-!
# Fragments do not matter

What is read of a descriptor, and what is left of it when bytes are cut off, depends
only on its bytes, however they lie in fragments.
-/

namespace Sm8650.Rmnet

open List SkbFrag

variable (pages : Pages)

/-- Bytes are dropped inside the first fragment. -/
theorem drop_fragBytes_inside (frag : SkbFrag) (frags : List SkbFrag)
    {count : Nat} (inside : count ≤ frag.size) :
    (fragBytes pages (frag :: frags)).drop count =
      (frag.bytes pages).drop count ++ fragBytes pages frags := by
  rw [fragBytes_cons, drop_append_of_le_length]
  rw [length_bytes]
  exact inside

/-- The first fragment is dropped. -/
theorem drop_fragBytes_beyond (frag : SkbFrag) (frags : List SkbFrag)
    {count : Nat} (beyond : frag.size ≤ count) :
    (fragBytes pages (frag :: frags)).drop count =
      (fragBytes pages frags).drop (count - frag.size) := by
  have first : (frag.bytes pages).drop count = [] := by
    apply drop_eq_nil_of_le
    rw [length_bytes]
    exact beyond
  rw [fragBytes_cons, drop_append, first, length_bytes, nil_append]

/-! ## Reading -/

theorem readPage_eq (frag : SkbFrag) {off len : Nat} (within : off + len ≤ frag.size) :
    readPage pages frag.page (frag.off + off) len = ((frag.bytes pages).drop off).take len := by
  rw [← bytes_advance, bytes, take_readPage _ _ _ (by
    simp only [advance]
    omega)]
  rfl

theorem copyFrags_eq (frags : List SkbFrag) (off len : Nat) :
    copyFrags pages frags off len = ((fragBytes pages frags).drop off).take len := by
  induction frags generalizing off len with
  | nil => simp [copyFrags]
  | cons frag frags ih =>
    unfold copyFrags
    by_cases done : len = 0
    · rw [if_pos done, done, take_zero]
    · rw [if_neg done]
      by_cases inside : off < frag.size
      · rw [if_pos inside, drop_fragBytes_inside pages frag frags (Nat.le_of_lt inside),
          take_append, length_drop, length_bytes]
        simp only [ih]
        rw [readPage_eq pages frag (by omega)]
        congr 1
        · rw [take_eq_take_iff, length_drop, length_bytes]
          omega
        · congr 1
          omega
      · rw [if_neg inside, ih, drop_fragBytes_beyond pages frag frags (Nat.le_of_not_lt inside)]

theorem headerFrag_spec {frags : List SkbFrag} {off inner len : Nat}
    {frag : SkbFrag} (found : headerFrag frags off = some (frag, inner))
    (within : inner + len ≤ frag.size) :
    readPage pages frag.page (frag.off + inner) len =
      ((fragBytes pages frags).drop off).take len := by
  induction frags generalizing off with
  | nil => cases found
  | cons first frags ih =>
    unfold headerFrag at found
    by_cases inside : off < first.size
    · rw [if_pos inside] at found
      cases found
      rw [readPage_eq pages frag within, drop_fragBytes_inside pages frag frags (by omega),
        take_append_of_le_length (by rw [length_drop, length_bytes]; omega)]
    · rw [if_neg inside] at found
      rw [ih found, drop_fragBytes_beyond pages first frags (Nat.le_of_not_lt inside)]

namespace FragDescriptor

variable {pages : Pages} {desc : FragDescriptor} {off len size : Nat}

theorem Consistent.length_bytes (consistent : desc.Consistent) (pages : Pages) :
    (desc.bytes pages).length = desc.len :=
  (length_fragBytes pages desc.frags).trans consistent.symm

theorem outside_eq : desc.outside off len = decide (desc.len < off + len) := by
  unfold outside
  rw [Bool.eq_iff_iff, Bool.or_eq_true, Bool.or_eq_true, decide_eq_true_eq, decide_eq_true_eq,
    decide_eq_true_eq]
  omega

theorem rmnetFragCopyData_eq : desc.rmnetFragCopyData pages off len =
    if off + len ≤ desc.len then some (((desc.bytes pages).drop off).take len) else none := by
  unfold rmnetFragCopyData
  rw [outside_eq, copyFrags_eq]
  by_cases within : off + len ≤ desc.len
  · rw [if_pos within, if_neg (by simpa using within)]
    rfl
  · rw [if_neg within, if_pos (by simpa using within)]

/-- A header is read as it lies in the bytes, across fragments or not. -/
theorem rmnetFragHeaderPtr_eq : desc.rmnetFragHeaderPtr pages off len =
    if off + len ≤ desc.len then some (((desc.bytes pages).drop off).take len) else none := by
  unfold rmnetFragHeaderPtr
  by_cases within : off + len ≤ desc.len
  · rw [if_neg (by simpa [outside_eq] using within)]
    rcases found : headerFrag desc.frags off with _ | ⟨frag, inner⟩
    · exact rmnetFragCopyData_eq
    · by_cases linear : inner + len ≤ frag.size
      · simp only [if_pos linear, if_pos within]
        rw [headerFrag_spec pages found linear]
        rfl
      · simp only [if_neg linear]
        exact rmnetFragCopyData_eq
  · rw [if_pos (by simpa [outside_eq] using within), if_neg within]

theorem getD_of_headerPtr {bytes : List Byte} {i : Nat}
    (read : desc.rmnetFragHeaderPtr pages off len = some bytes) (inside : i < len) :
    bytes.getD i 0 = (desc.bytes pages).getD (off + i) 0 := by
  rw [rmnetFragHeaderPtr_eq] at read
  obtain ⟨_, bytes⟩ := Option.ite_none_right_eq_some.mp read
  rw [← Option.some.inj bytes, getD_eq_getElem?_getD, getElem?_take_of_lt inside, getElem?_drop,
    getD_eq_getElem?_getD]

theorem le_of_headerPtr {bytes : List Byte}
    (read : desc.rmnetFragHeaderPtr pages off len = some bytes) : off + len ≤ desc.len := by
  rw [rmnetFragHeaderPtr_eq] at read
  exact (Option.ite_none_right_eq_some.mp read).1

end FragDescriptor

/-! ## Cutting -/

theorem pullFrags_spec {frags : List SkbFrag} {size len : Nat}
    (within : size ≤ (frags.map SkbFrag.size).sum) :
    fragBytes pages (pullFrags frags size len).1 = (fragBytes pages frags).drop size ∧
      (pullFrags frags size len).2 = len - size := by
  induction frags generalizing size len with
  | nil =>
    rw [Nat.le_zero.mp within]
    exact ⟨rfl, rfl⟩
  | cons frag frags ih =>
    rw [map_cons, sum_cons] at within
    unfold pullFrags
    by_cases done : size = 0
    · rw [done]
      exact ⟨rfl, rfl⟩
    · rw [if_neg done]
      by_cases whole : frag.size ≤ size
      · obtain ⟨bytes, rest⟩ := @ih (size - frag.size) (len - frag.size) (by omega)
        rw [if_pos whole, bytes, drop_fragBytes_beyond pages frag frags whole]
        exact ⟨rfl, by omega⟩
      · rw [if_neg whole, drop_fragBytes_inside pages frag frags (Nat.le_of_not_le whole)]
        simp only [fragBytes_cons, bytes_advance]
        exact ⟨trivial, trivial⟩

theorem trimFrags_spec {frags : List SkbFrag} {eat len : Nat}
    (within : eat ≤ (frags.map SkbFrag.size).sum) :
    fragBytes pages (trimFrags frags eat len).1.reverse =
        (fragBytes pages frags.reverse).take ((frags.map SkbFrag.size).sum - eat) ∧
      (trimFrags frags eat len).2 = len - eat := by
  induction frags generalizing eat len with
  | nil =>
    rw [Nat.le_zero.mp within]
    exact ⟨rfl, rfl⟩
  | cons frag frags ih =>
    have total : (fragBytes pages frags.reverse).length = (frags.map SkbFrag.size).sum := by
      rw [length_fragBytes, map_reverse, sum_reverse]
    rw [map_cons, sum_cons] at within ⊢
    rw [reverse_cons, fragBytes_append]
    unfold trimFrags
    by_cases done : eat = 0
    · rw [if_pos done, done, reverse_cons, fragBytes_append, fragBytes_cons, fragBytes_nil,
        append_nil, take_of_length_le]
      · exact ⟨rfl, rfl⟩
      · rw [length_append, length_bytes]
        omega
    · rw [if_neg done]
      by_cases whole : frag.size ≤ eat
      · obtain ⟨bytes, rest⟩ := @ih (eat - frag.size) (len - frag.size) (by omega)
        rw [if_pos whole, bytes, take_append, total]
        refine ⟨?_, by omega⟩
        rw [take_eq_nil_iff.mpr (Or.inl (by omega : frag.size +
          (frags.map SkbFrag.size).sum - eat - (frags.map SkbFrag.size).sum = 0)),
          append_nil]
        congr 1
        omega
      · have front : (fragBytes pages frags.reverse).take
            (frag.size + (frags.map SkbFrag.size).sum - eat) = fragBytes pages frags.reverse :=
          take_of_length_le (by rw [total]; omega)
        rw [if_neg whole, take_append, front]
        simp only [reverse_cons, fragBytes_append, fragBytes_cons, fragBytes_nil,
          append_nil, bytes_shorten pages frag (Nat.sub_le frag.size eat)]
        refine ⟨?_, trivial⟩
        congr 2
        omega

namespace FragDescriptor

variable {pages : Pages} {desc : FragDescriptor} {size : Nat}

section

variable (consistent : desc.Consistent)

include consistent

section

variable (within : size ≤ desc.len)

include within

theorem bytes_pulled : (desc.pulled size).bytes pages = (desc.bytes pages).drop size :=
  (pullFrags_spec pages (consistent ▸ within)).1

theorem len_pulled : (desc.pulled size).len = desc.len - size :=
  (pullFrags_spec (fun _ _ => 0) (consistent ▸ within)).2

theorem Consistent.pulled : (desc.pulled size).Consistent := by
  have bytes := congrArg length (@bytes_pulled (fun _ _ => 0) desc size consistent within)
  rw [length_drop, consistent.length_bytes] at bytes
  rw [Consistent, len_pulled consistent within]
  exact bytes.symm.trans (length_fragBytes _ _)

theorem bytes_trimmed : (desc.trimmed size).bytes pages = (desc.bytes pages).take size := by
  have total : (desc.frags.reverse.map SkbFrag.size).sum = desc.len := by
    rw [map_reverse, sum_reverse]
    exact consistent.symm
  have bytes := (@trimFrags_spec pages desc.frags.reverse (desc.len - size) desc.len (by omega)).1
  rw [reverse_reverse, total, Nat.sub_sub_self within] at bytes
  exact bytes

theorem len_trimmed : (desc.trimmed size).len = size := by
  have total : (desc.frags.reverse.map SkbFrag.size).sum = desc.len := by
    rw [map_reverse, sum_reverse]
    exact consistent.symm
  have rest := (@trimFrags_spec (fun _ _ => 0) desc.frags.reverse (desc.len - size) desc.len
    (by omega)).2
  exact rest.trans (Nat.sub_sub_self within)

theorem Consistent.trimmed : (desc.trimmed size).Consistent := by
  have bytes := congrArg length (@bytes_trimmed (fun _ _ => 0) desc size consistent within)
  rw [length_take, consistent.length_bytes, Nat.min_eq_left within] at bytes
  rw [Consistent, len_trimmed consistent within]
  exact bytes.symm.trans (length_fragBytes _ _)

end

end

end FragDescriptor

end Sm8650.Rmnet
