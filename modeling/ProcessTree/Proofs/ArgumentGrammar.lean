-- The grammar of a program's arguments, byte by byte: a flag, and behind it
-- nothing or two descriptor numbers. What an invocation is read as is what the
-- grammar says, and so is the first thing that is wrong with it.
import Mathlib
import ProcessTree.Proofs.Invocation
import ProcessTree.Proofs.Text.Utf8

namespace ProcessTree

/-! ## Hexadecimal numbers -/

/-- A byte is a hexadecimal digit of this value; letters are in either case. -/
inductive HexDigit : UInt8 → Nat → Prop
  | decimal {byte : UInt8} {value : Nat} (most : value < 10) (code : byte.toNat = 0x30 + value) :
      HexDigit byte value
  | upper {byte : UInt8} {value : Nat} (most : value < 6) (code : byte.toNat = 0x41 + value) :
      HexDigit byte (10 + value)
  | lower {byte : UInt8} {value : Nat} (most : value < 6) (code : byte.toNat = 0x61 + value) :
      HexDigit byte (10 + value)

/-- Bytes are the digits of a number, with any number of zeros before it. -/
def HexDigits (bytes : Bytes) (n : Nat) : Prop :=
  bytes ≠ [] ∧ ∃ values, List.Forall₂ HexDigit bytes values ∧ n = Nat.ofDigits 16 values.reverse

/-- An argument names a descriptor by its digits, with or without a plus sign, and the number has
31 bits at most. -/
structure Names (arg : OsText) (fd : Nat) : Prop where
  spelled : ∃ sign digits, arg.bytes = sign ++ digits ∧ (sign = [] ∨ sign = [0x2B]) ∧
    HexDigits digits fd
  small : fd < 2 ^ 31

theorem HexDigits.code_lt {bytes : Bytes} {n : Nat} (h : HexDigits bytes n) :
    ∀ byte ∈ bytes, byte.toNat < 128 := by
  obtain ⟨-, values, hvalues, -⟩ := h
  induction hvalues with
  | nil => simp
  | cons hdigit _ ih =>
    rw [List.forall_mem_cons]
    refine ⟨?_, ih⟩
    cases hdigit <;> omega

namespace Numeral

theorem digit?_eq_some_iff {c : Char} {byte : UInt8} {value : Nat} (hc : c.toNat = byte.toNat) :
    digit? 16 c = some value ↔ HexDigit byte value := by
  unfold digit?
  rw [Option.filter_eq_some_iff, hc]
  constructor
  · rintro ⟨hvalue, hlt⟩
    simp only [decide_eq_true_eq] at hlt
    split at hvalue
    · cases hvalue
      exact .decimal (by omega) (by omega)
    · split at hvalue
      · cases hvalue
        obtain ⟨letter, hletter⟩ : ∃ letter, byte.toNat - 87 = 10 + letter :=
          ⟨byte.toNat - 97, by omega⟩
        rw [hletter] at hlt ⊢
        exact .lower (by omega) (by omega)
      · split at hvalue
        · cases hvalue
          obtain ⟨letter, hletter⟩ : ∃ letter, byte.toNat - 55 = 10 + letter :=
            ⟨byte.toNat - 65, by omega⟩
          rw [hletter] at hlt ⊢
          exact .upper (by omega) (by omega)
        · cases hvalue
  · intro h
    cases h with
    | decimal most code =>
      rw [if_pos (by omega)]
      exact ⟨congrArg some (by omega), by simpa using (by omega)⟩
    | upper most code =>
      rw [if_neg (by omega), if_neg (by omega), if_pos (by omega)]
      exact ⟨congrArg some (by omega), by simpa using (by omega)⟩
    | lower most code =>
      rw [if_neg (by omega), if_pos (by omega)]
      exact ⟨congrArg some (by omega), by simpa using (by omega)⟩

/-- The bytes of characters of seven bits. -/
def codes (chars : List Char) : Bytes := chars.map fun c => UInt8.ofNat c.toNat

theorem toNat_code {c : Char} (h : c.toNat < 128) : c.toNat = (UInt8.ofNat c.toNat).toNat :=
  (Bytes.toNat_ofNat_byte (by omega)).symm

theorem digits?_eq_some_iff {chars : List Char} {n : Nat} (hchars : ∀ c ∈ chars, c.toNat < 128) :
    digits? 16 chars = some n ↔ HexDigits (codes chars) n := by
  have hvalues (values : List Nat) :
      List.Forall₂ (fun c value => digit? 16 c = some value) chars values ↔
        List.Forall₂ HexDigit (codes chars) values := by
    unfold codes
    rw [List.forall₂_map_left_iff]
    induction chars generalizing values with
    | nil => simp
    | cons c chars ih =>
      have hc := toNat_code (hchars c List.mem_cons_self)
      have hrest := ih fun c hmem => hchars c (List.mem_cons_of_mem _ hmem)
      simp only [List.forall₂_cons_left_iff, digit?_eq_some_iff hc, hrest]
  unfold HexDigits
  rw [digits?_eq_some_iff_ofDigits]
  simp only [hvalues]
  refine and_congr_left fun _ => ?_
  unfold codes
  rw [Ne, Ne, List.map_eq_nil_iff]

end Numeral

/-! ## Descriptor arguments -/

namespace Invocation

theorem exists_text_of_codes {bytes : Bytes} (h : ∀ byte ∈ bytes, byte.toNat < 128) :
    ∃ chars, Numeral.codes chars = bytes ∧ ∀ c ∈ chars, c.toNat < 128 := by
  have hcode (byte : UInt8) (hbyte : byte.toNat < 128) :
      (Char.ofNat byte.toNat).toNat = byte.toNat := Utf8.toNat_charOfNat (by omega)
  refine ⟨bytes.map fun byte => Char.ofNat byte.toNat, ?_, ?_⟩
  · unfold Numeral.codes
    rw [List.map_map]
    refine (List.map_congr_left fun byte hbyte => ?_).trans (List.map_id bytes)
    simp only [Function.comp_apply, hcode byte (h byte hbyte), UInt8.ofNat_toNat, id]
  · intro c hc
    obtain ⟨byte, hbyte, rfl⟩ := List.mem_map.mp hc
    rw [hcode byte (h byte hbyte)]
    exact h byte hbyte

/-- Characters of seven bits are the text of their bytes and of no others. -/
theorem text?_eq_some_iff {arg : OsText} {chars : List Char} (h : ∀ c ∈ chars, c.toNat < 128) :
    arg.text? = some (String.ofList chars) ↔ arg.bytes = Numeral.codes chars := by
  have hbytes := OsText.bytes_ofText_ascii (String.ofList chars) (by rwa [String.toList_ofList])
  rw [String.toList_ofList] at hbytes
  unfold OsText.text?
  rw [Utf8.decode?_eq_some_iff]
  exact ⟨fun heq => heq.trans hbytes, fun heq => heq.trans hbytes.symm⟩

/-- The number that an argument is read as is the one that it names. -/
theorem read?_eq_some_iff_names {arg : OsText} {n : Nat} :
    (arg.text?.bind fun text => Numeral.read? 16 maxFd text.toList) = some n ↔ Names arg n := by
  constructor
  · intro h
    obtain ⟨text, htext, hread⟩ := Option.bind_eq_some_iff.mp h
    obtain ⟨⟨sign, digits, hchars, hsign, hdigits⟩, hle⟩ := Numeral.read?_eq_some_iff.mp hread
    obtain ⟨-, hbounds⟩ := Numeral.bounds_of_digits? hdigits
    have hascii : ∀ c ∈ sign ++ digits, c.toNat < 128 := by
      intro c hc
      rcases List.mem_append.mp hc with hc | hc
      · rcases hsign with rfl | rfl
        · cases hc
        · rw [List.mem_singleton.mp hc]
          decide
      · exact (hbounds c hc).1
    rw [← String.ofList_toList (s := text), hchars, text?_eq_some_iff hascii] at htext
    rw [Numeral.digits?_eq_some_iff fun c hc => (hbounds c hc).1] at hdigits
    refine ⟨⟨Numeral.codes sign, Numeral.codes digits, ?_, ?_, hdigits⟩, Nat.lt_succ_of_le hle⟩
    · rw [htext]
      exact List.map_append
    · rcases hsign with rfl | rfl
      · exact Or.inl rfl
      · exact Or.inr rfl
  · rintro ⟨⟨sign, digits, hbytes, hsign, hdigits⟩, hlt⟩
    obtain ⟨signChars, hsignCodes, hsignChars⟩ : ∃ chars, Numeral.codes chars = sign ∧
        (chars = [] ∨ chars = ['+']) := by
      rcases hsign with rfl | rfl
      · exact ⟨[], rfl, Or.inl rfl⟩
      · exact ⟨['+'], rfl, Or.inr rfl⟩
    obtain ⟨chars, hcodes, hchars⟩ := exists_text_of_codes hdigits.code_lt
    have hascii : ∀ c ∈ signChars ++ chars, c.toNat < 128 := by
      intro c hc
      rcases List.mem_append.mp hc with hc | hc
      · rcases hsignChars with rfl | rfl
        · cases hc
        · rw [List.mem_singleton.mp hc]
          decide
      · exact hchars c hc
    have htext : arg.text? = some (String.ofList (signChars ++ chars)) := by
      rw [text?_eq_some_iff hascii, hbytes, ← hsignCodes, ← hcodes]
      exact List.map_append.symm
    rw [htext, Option.bind_some, String.toList_ofList, Numeral.read?_eq_some_iff]
    refine ⟨⟨signChars, chars, rfl, hsignChars, ?_⟩, Nat.le_of_lt_succ hlt⟩
    rw [Numeral.digits?_eq_some_iff hchars, hcodes]
    exact hdigits

/-- An argument is read as the number that it names. -/
theorem readFd_of_names {arg : OsText} {n : Nat} (h : Names arg n) :
    readFd arg = .ok (Int32.ofNat n) := by
  unfold readFd
  rw [read?_eq_some_iff_names.mpr h]

/-- What names nothing is refused, as it was given. -/
theorem readFd_of_not_names {arg : OsText} (h : ∀ n, ¬ Names arg n) :
    readFd arg = .error (.invocation ("invalid descriptor argument " ++ arg.quoted)) := by
  unfold readFd
  have hnone : (arg.text?.bind fun text => Numeral.read? 16 maxFd text.toList) = none := by
    rw [Option.eq_none_iff_forall_ne_some]
    exact fun n hn => h n (read?_eq_some_iff_names.mp hn)
  rw [hnone]

/-! ## Flags -/

/-- The arguments that select a role. -/
inductive Flag : OsText → Role → Prop
  | zygote : Flag (.ofText "--zygote") .zygote
  | worker : Flag (.ofText "--worker") .worker
  | job : Flag (.ofText "--job") .job

theorem roleOf?_eq_some_iff {arg : OsText} {role : Role} :
    roleOf? arg = some role ↔ Flag arg role := by
  constructor
  · intro h
    obtain ⟨flag, htext, hrole⟩ := Option.bind_eq_some_iff.mp h
    obtain rfl : arg = .ofText flag := by
      obtain ⟨bytes⟩ := arg
      exact congrArg OsText.mk (Utf8.decode?_eq_some_iff.mp htext)
    have hflag : role.flag? = some flag := by simpa using List.find?_some hrole
    cases role with
    | root => cases hflag
    | zygote =>
      cases hflag
      exact .zygote
    | worker =>
      cases hflag
      exact .worker
    | job =>
      cases hflag
      exact .job
  · intro h
    cases h with
    | zygote | worker | job => exact roleOf?_flag rfl

/-! ## Arguments -/

/-- What the arguments of a program say, its name first. Of what is wrong with them the first thing
counts: their number, the first one that names no descriptor, the same descriptor twice. -/
inductive Reads : List OsText → Except ReentryError Invocation → Prop
  | bare {args : List OsText} (few : args.length ≤ 1) : Reads args (.ok .root)
  | other {program first : OsText} {rest : List OsText} (noFlag : ∀ role, ¬ Flag first role) :
      Reads (program :: first :: rest) (.ok .root)
  | fixed {program flag : OsText} {role : Role} (selects : Flag flag role) :
      Reads [program, flag] (.ok (.reentry role ⟨3, 4⟩))
  | numbered {program flag read write : OsText} {role : Role} {r w : Nat}
      (selects : Flag flag role) (reads : Names read r) (writes : Names write w) (ne : r ≠ w) :
      Reads [program, flag, read, write] (.ok (.reentry role ⟨Int32.ofNat r, Int32.ofNat w⟩))
  | count {program flag : OsText} {role : Role} {rest : List OsText} (selects : Flag flag role)
      (notNone : rest.length ≠ 0) (notTwo : rest.length ≠ 2) :
      Reads (program :: flag :: rest) (.error (.invocation (role.name ++
        " expects no arguments or two descriptor numbers, got " ++ Nat.repr rest.length)))
  | invalidRead {program flag read write : OsText} {role : Role} (selects : Flag flag role)
      (invalid : ∀ r, ¬ Names read r) :
      Reads [program, flag, read, write]
        (.error (.invocation ("invalid descriptor argument " ++ read.quoted)))
  | invalidWrite {program flag read write : OsText} {role : Role} {r : Nat}
      (selects : Flag flag role) (reads : Names read r) (invalid : ∀ w, ¬ Names write w) :
      Reads [program, flag, read, write]
        (.error (.invocation ("invalid descriptor argument " ++ write.quoted)))
  | same {program flag read write : OsText} {role : Role} {fd : Nat} (selects : Flag flag role)
      (reads : Names read fd) (writes : Names write fd) :
      Reads [program, flag, read, write] (.error (.invocation (role.name ++
        " read and write descriptors are both " ++ Nat.repr fd)))

section Flagged

variable {program flag : OsText} {role : Role} {rest : List OsText} {fds : ChannelFds}

/-- Behind a flag, two different descriptors are the channel of the role. -/
theorem ofArgs_of_fds (hflag : Flag flag role) (hfds : readFds role rest = .ok fds)
    (hne : fds.read ≠ fds.write) :
    ofArgs (program :: flag :: rest) = .ok (.reentry role fds) := by
  unfold ofArgs
  simp only [List.drop_succ_cons, List.drop_zero, roleOf?_eq_some_iff.mpr hflag, hfds,
    if_neg hne]

theorem ofArgs_of_equal (hflag : Flag flag role) (hfds : readFds role rest = .ok fds)
    (heq : fds.read = fds.write) :
    ofArgs (program :: flag :: rest) = .error (.invocation (role.name ++
      " read and write descriptors are both " ++ toString fds.read.toInt)) := by
  unfold ofArgs
  simp only [List.drop_succ_cons, List.drop_zero, roleOf?_eq_some_iff.mpr hflag, hfds, if_pos heq]

theorem ofArgs_of_error (hflag : Flag flag role) {e : ReentryError}
    (hfds : readFds role rest = .error e) : ofArgs (program :: flag :: rest) = .error e := by
  unfold ofArgs
  simp only [List.drop_succ_cons, List.drop_zero, roleOf?_eq_some_iff.mpr hflag, hfds]

theorem readFds_of_names {read write : OsText} {r w : Nat} (hread : Names read r)
    (hwrite : Names write w) :
    readFds role [read, write] = .ok ⟨Int32.ofNat r, Int32.ofNat w⟩ := by
  simp only [readFds, readFd_of_names hread, readFd_of_names hwrite]

/-- Neither none nor two: the arguments are counted before any of them is read. -/
theorem readFds_of_count (hnotNone : rest.length ≠ 0) (hnotTwo : rest.length ≠ 2) :
    readFds role rest = .error (.invocation (role.name ++
      " expects no arguments or two descriptor numbers, got " ++ Nat.repr rest.length)) := by
  unfold readFds
  split
  · exact absurd rfl hnotNone
  · exact absurd rfl hnotTwo
  · rfl

end Flagged

/-- What the grammar says of arguments is what they are read as. -/
theorem ofArgs_of_reads {args : List OsText} {result : Except ReentryError Invocation}
    (h : Reads args result) : ofArgs args = result := by
  cases h with
  | bare few =>
    unfold ofArgs
    rw [List.drop_of_length_le few]
  | other noFlag =>
    have hnone := Option.eq_none_iff_forall_ne_some.mpr fun role hrole =>
      noFlag role (roleOf?_eq_some_iff.mp hrole)
    unfold ofArgs
    simp only [List.drop_succ_cons, List.drop_zero, hnone]
  | fixed selects => exact ofArgs_of_fds selects rfl (by decide)
  | numbered selects reads writes ne =>
    refine ofArgs_of_fds selects (readFds_of_names reads writes) ?_
    intro heq
    have hvalues := congrArg Int32.toInt heq
    rw [Int32.toInt_ofNat_of_lt reads.small, Int32.toInt_ofNat_of_lt writes.small] at hvalues
    exact ne (Int.ofNat.inj hvalues)
  | count selects notNone notTwo =>
    exact ofArgs_of_error selects (readFds_of_count notNone notTwo)
  | invalidRead selects invalid =>
    exact ofArgs_of_error selects (by simp only [readFds, readFd_of_not_names invalid])
  | invalidWrite selects reads invalid =>
    refine ofArgs_of_error selects ?_
    simp only [readFds, readFd_of_names reads, readFd_of_not_names invalid]
  | same selects reads writes =>
    rw [ofArgs_of_equal selects (readFds_of_names reads writes) rfl,
      Int32.toInt_ofNat_of_lt reads.small]
    rfl

/-- The grammar has a reading for all arguments. -/
theorem exists_reads (args : List OsText) : ∃ result, Reads args result := by
  rcases args with _ | ⟨program, _ | ⟨first, rest⟩⟩
  · exact ⟨_, .bare (Nat.zero_le 1)⟩
  · exact ⟨_, .bare (Nat.le_refl 1)⟩
  · by_cases hflag : ∃ role, Flag first role
    · obtain ⟨role, hflag⟩ := hflag
      rcases rest with _ | ⟨read, _ | ⟨write, _ | ⟨more, rest⟩⟩⟩
      · exact ⟨_, .fixed hflag⟩
      · exact ⟨_, .count hflag (by simp) (by simp)⟩
      · by_cases hread : ∃ r, Names read r
        · obtain ⟨r, hread⟩ := hread
          by_cases hwrite : ∃ w, Names write w
          · obtain ⟨w, hwrite⟩ := hwrite
            by_cases heq : r = w
            · subst heq
              exact ⟨_, .same hflag hread hwrite⟩
            · exact ⟨_, .numbered hflag hread hwrite heq⟩
          · exact ⟨_, .invalidWrite hflag hread fun w hw => hwrite ⟨w, hw⟩⟩
        · exact ⟨_, .invalidRead hflag fun r hr => hread ⟨r, hr⟩⟩
      · exact ⟨_, .count hflag (by simp) (by simp)⟩
    · exact ⟨_, .other fun role hrole => hflag ⟨role, hrole⟩⟩

/-- The arguments of a program, whatever bytes they are, are read as the grammar says and in no
other way: as those of the root unless a flag stands first, as a role with two descriptors when the
flag stands alone or before two different numbers, and else as the first mistake in them. -/
theorem arguments_are_read_by_their_grammar (args : List OsText)
    (result : Except ReentryError Invocation) : ofArgs args = result ↔ Reads args result := by
  constructor
  · rintro rfl
    obtain ⟨result, hreads⟩ := exists_reads args
    rw [ofArgs_of_reads hreads]
    exact hreads
  · exact ofArgs_of_reads

/-- One descriptor in two spellings. -/
example : ofArgs (["warren", "--worker", "a", "+0A"].map .ofText) =
    .error (.invocation "worker read and write descriptors are both 10") := by
  decide +kernel

end Invocation

end ProcessTree
