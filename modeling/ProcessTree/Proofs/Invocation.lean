-- A process reads its arguments back as they were written for it: the flag gives
-- the role, and the hexadecimal digits of a descriptor give its number.
import Mathlib
import ProcessTree.Invocation
import ProcessTree.Proofs.Text.Numeral

namespace ProcessTree

/-! ## Texts of seven bits -/

namespace Utf8

theorem pieces_ascii (chars : List Char) (h : ∀ c ∈ chars, c.toNat < 128) :
    pieces (chars.map fun c => UInt8.ofNat c.toNat) = chars.map .char := by
  unfold pieces
  induction chars with
  | nil => rfl
  | cons c chars ih =>
    have hc : c.toNat < 128 := h c List.mem_cons_self
    have hbyte : (UInt8.ofNat c.toNat).toNat = c.toNat := by
      rw [UInt8.toNat_ofNat']
      omega
    have hstep : step none (UInt8.ofNat c.toNat) = ([.char c], none) := by
      unfold step start lead?
      simp only [hbyte, if_pos hc]
      simp
    rw [List.map_cons, piecesFrom, hstep]
    simp only [List.map_cons, List.singleton_append]
    rw [ih fun c hmem => h c (List.mem_cons_of_mem _ hmem)]

end Utf8

namespace OsText

theorem bytes_ofText_ascii (text : String) (h : ∀ c ∈ text.toList, c.toNat < 128) :
    (ofText text).bytes = text.toList.map fun c => UInt8.ofNat c.toNat := by
  have hencode : ∀ chars : List Char, (∀ c ∈ chars, c.toNat < 128) →
      chars.flatMap String.utf8EncodeChar = chars.map fun c => UInt8.ofNat c.toNat := by
    intro chars
    induction chars with
    | nil => exact fun _ => rfl
    | cons c chars ih =>
      intro hchars
      have hc : c.val.toNat ≤ 127 := Nat.le_of_lt_succ (hchars c List.mem_cons_self)
      rw [List.flatMap_cons, List.map_cons, ih fun c hmem => hchars c (List.mem_cons_of_mem _ hmem)]
      unfold String.utf8EncodeChar
      simp only [if_pos hc]
      rfl
  unfold ofText Bytes.ofText
  rw [← hencode text.toList h]
  obtain ⟨chars, rfl⟩ : ∃ chars, text = String.ofList chars :=
    ⟨text.toList, String.ofList_toList.symm⟩
  simp [String.toUTF8, List.utf8Encode]

/-- A text of seven-bit characters is read back as it is. -/
theorem text?_ofText (text : String) (h : ∀ c ∈ text.toList, c.toNat < 128) :
    (ofText text).text? = some text := by
  unfold text? Utf8.decode?
  rw [bytes_ofText_ascii text h, Utf8.pieces_ascii _ h]
  have hchars (chars : List Char) : chars.mapM some = some chars := by
    induction chars with
    | nil => rfl
    | cons c chars ih => simp [ih]
  simp [List.mapM_map, Function.comp_def, hchars]

end OsText

/-! ## Arguments -/

namespace Invocation

theorem toNat_toUInt32_le_iff (n : Int32) : n.toUInt32.toNat ≤ maxFd ↔ 0 ≤ n.toInt := by
  have hbits : n.toUInt32.toNat = n.toBitVec.toNat := rfl
  have hint : n.toInt = n.toBitVec.toInt := rfl
  rw [hbits, hint, BitVec.toInt_eq_toNat_cond]
  unfold maxFd
  split <;> omega

theorem text?_hexWord (n : Int32) :
    (OsText.ofText (Role.hexWord n)).text? = some (Role.hexWord n) := by
  refine OsText.text?_ofText _ fun c hc => ?_
  unfold Role.hexWord Numeral.hex at hc
  rw [String.toList_ofList] at hc
  exact (Numeral.bounds_of_mem_toDigits (by decide) (by decide) hc).1

/-- The digits of a number are read back where it is not negative; those of a negative number stand
for one that no descriptor has. -/
theorem read?_hexWord (n : Int32) :
    Numeral.read? 16 maxFd (Role.hexWord n).toList =
      if 0 ≤ n.toInt then some n.toUInt32.toNat else none := by
  unfold Role.hexWord Numeral.hex
  rw [String.toList_ofList, Numeral.read?_toDigits (by decide) (by decide)]
  simp only [toNat_toUInt32_le_iff]

theorem readFd_hexWord {n : Int32} (h : 0 ≤ n.toInt) :
    readFd (.ofText (Role.hexWord n)) = .ok n := by
  unfold readFd
  rw [text?_hexWord, Option.bind_some, read?_hexWord, if_pos h]
  simp [Int32.ofNat]

theorem readFd_hexWord_of_neg {n : Int32} (h : n.toInt < 0) :
    readFd (.ofText (Role.hexWord n)) = .error (.invocation
      ("invalid descriptor argument " ++ (OsText.ofText (Role.hexWord n)).quoted)) := by
  unfold readFd
  rw [text?_hexWord, Option.bind_some, read?_hexWord, if_neg (by omega)]

theorem exists_flag {role : Role} (h : role ≠ .root) : ∃ flag, role.flag? = some flag := by
  cases role with
  | root => exact absurd rfl h
  | zygote | worker | job => exact ⟨_, rfl⟩

theorem roleOf?_flag {role : Role} {flag : String} (h : role.flag? = some flag) :
    roleOf? (.ofText flag) = some role := by
  unfold roleOf?
  cases role with
  | root => cases h
  | zygote | worker | job =>
    cases h
    rw [OsText.text?_ofText _ (by simp)]
    rfl

/-- With its flag alone a process looks for its channel in the fixed place. -/
theorem ofArgs_fixed {role : Role} (hrole : role ≠ .root) (program : OsText) (fds : ChannelFds) :
    ofArgs (program :: (role.reentryArgs .fixed fds).map .ofText) = .ok (.reentry role .fixed) := by
  obtain ⟨flag, hflag⟩ := exists_flag hrole
  unfold ofArgs Role.reentryArgs
  simp only [hflag, List.map_cons, List.map_nil, List.drop_succ_cons, List.drop_zero,
    roleOf?_flag hflag, readFds]
  rfl

/-- What is wrong with descriptors that arguments name, if anything is. Of two mistakes the first
one in this order counts. -/
def mistake? (role : Role) (fds : ChannelFds) : Option String :=
  if fds.read.toInt < 0 then
    some ("invalid descriptor argument " ++ (OsText.ofText (Role.hexWord fds.read)).quoted)
  else if fds.write.toInt < 0 then
    some ("invalid descriptor argument " ++ (OsText.ofText (Role.hexWord fds.write)).quoted)
  else if fds.read = fds.write then
    some (role.name ++ " read and write descriptors are both " ++ toString fds.read.toInt)
  else none

theorem mistake?_eq_none_iff {role : Role} {fds : ChannelFds} :
    mistake? role fds = none ↔
      0 ≤ fds.read.toInt ∧ 0 ≤ fds.write.toInt ∧ fds.read ≠ fds.write := by
  unfold mistake?
  split
  · simp only [reduceCtorEq, false_iff]
    omega
  · split
    · simp only [reduceCtorEq, false_iff]
      omega
    · split
      · rename_i heq
        simp [heq]
      · rename_i hread hwrite hne
        simp only [true_iff]
        exact ⟨by omega, by omega, hne⟩

/-- Descriptors that are written out are read back, or refused for what is wrong with them. -/
theorem ofArgs_of_mistake? {role : Role} (hrole : role ≠ .root) (program : OsText)
    (fds : ChannelFds) :
    ofArgs (program :: (role.reentryArgs .numbered fds).map .ofText) =
      (mistake? role fds).elim (.ok (.reentry role fds)) fun text => .error (.invocation text) := by
  obtain ⟨flag, hflag⟩ := exists_flag hrole
  unfold ofArgs Role.reentryArgs mistake?
  simp only [hflag, List.map_cons, List.map_nil, List.drop_succ_cons, List.drop_zero,
    roleOf?_flag hflag, readFds]
  by_cases hread : fds.read.toInt < 0
  · simp only [readFd_hexWord_of_neg hread, if_pos hread, Option.elim_some]
  · rw [readFd_hexWord (by omega), if_neg hread]
    by_cases hwrite : fds.write.toInt < 0
    · simp only [readFd_hexWord_of_neg hwrite, if_pos hwrite, Option.elim_some]
    · rw [readFd_hexWord (by omega), if_neg hwrite]
      by_cases heq : fds.read = fds.write
      · simp only [if_pos heq, Option.elim_some]
      · simp only [if_neg heq, Option.elim_none]

/-- Two different numbers that are written out are read back. -/
theorem ofArgs_numbered {role : Role} (hrole : role ≠ .root) (program : OsText) {fds : ChannelFds}
    (hread : 0 ≤ fds.read.toInt) (hwrite : 0 ≤ fds.write.toInt) (hne : fds.read ≠ fds.write) :
    ofArgs (program :: (role.reentryArgs .numbered fds).map .ofText) = .ok (.reentry role fds) := by
  rw [ofArgs_of_mistake? hrole, mistake?_eq_none_iff.mpr ⟨hread, hwrite, hne⟩, Option.elim_none]

/-- What a role other than the root's is told in arguments is what it reads in them. Numbers come
back exactly when they are two different ones and neither is negative; else they are refused for
the first mistake in them, so that no number is taken for another one. A flag alone stands for the
fixed place, and a root is told nothing. -/
theorem arguments_are_read_back_or_refused (program : OsText) {role : Role} (hrole : role ≠ .root)
    (fds : ChannelFds) :
    (ofArgs (program :: (role.reentryArgs .numbered fds).map .ofText) = .ok (.reentry role fds) ↔
      0 ≤ fds.read.toInt ∧ 0 ≤ fds.write.toInt ∧ fds.read ≠ fds.write) ∧
    (¬ (0 ≤ fds.read.toInt ∧ 0 ≤ fds.write.toInt ∧ fds.read ≠ fds.write) →
      ∃ text, mistake? role fds = some text ∧
        ofArgs (program :: (role.reentryArgs .numbered fds).map .ofText) =
          .error (.invocation text)) ∧
    ofArgs (program :: (role.reentryArgs .fixed fds).map .ofText) =
      .ok (.reentry role ⟨3, 4⟩) ∧
    ∀ passing, ofArgs (program :: (Role.root.reentryArgs passing fds).map .ofText) = .ok .root := by
  rw [← @mistake?_eq_none_iff role fds, ofArgs_of_mistake? hrole]
  refine ⟨?_, ?_, ofArgs_fixed hrole program fds, fun _ => rfl⟩
  · cases mistake? role fds with
    | none => simp
    | some text => simp
  · intro hmistake
    obtain ⟨text, htext⟩ := Option.ne_none_iff_exists'.mp hmistake
    refine ⟨text, htext, ?_⟩
    rw [htext, Option.elim_some]

/-- A worker finds the descriptors 12 and 13, and no descriptor -1. -/
theorem a_negative_descriptor_is_refused :
    Role.worker ≠ .root ∧
    ofArgs (["warren", "--worker", "c", "d"].map .ofText) = .ok (.reentry .worker ⟨12, 13⟩) ∧
    ofArgs (["warren", "--worker", "ffffffff", "d"].map .ofText) =
      .error (.invocation "invalid descriptor argument \"ffffffff\"") := by
  have hworker : Role.worker ≠ .root := by decide
  obtain ⟨hread, -⟩ := arguments_are_read_back_or_refused (.ofText "warren") hworker ⟨12, 13⟩
  obtain ⟨-, hrefused, -⟩ :=
    arguments_are_read_back_or_refused (.ofText "warren") hworker ⟨-1, 13⟩
  obtain ⟨text, htext, hresult⟩ := hrefused (by decide)
  have hshown : some "invalid descriptor argument \"ffffffff\"" = some text := by
    rw [← htext]
    decide +kernel
  cases hshown
  exact ⟨hworker, hread.mpr (by decide), hresult⟩

end Invocation

end ProcessTree
