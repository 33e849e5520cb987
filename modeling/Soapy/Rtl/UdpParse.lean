import Soapy.Lib.Bytes
import Soapy.Rtl.NumberSyntax

/-! # Commands of the UDP interface

A datagram is a line of text: a command letter and its arguments. A run of `parse` tells what is
done with the device, what is replied, and whether memory is touched that is not the message's.
-/

namespace Soapy.Rtl.Udp

open Lib

def UDP_TX_BUFLEN : Nat := 1024

def isSeparator (c : Char) : Bool := c = ' ' || c = '\t'

/-- The next token, and where the search goes on. -/
def strtok_r (saveptr : List Char) : Option (List Char) × List Char :=
  match saveptr.dropWhile isSeparator with
  | [] => (none, [])
  | c :: rest =>
    (some ((c :: rest).takeWhile (!isSeparator ·)),
      ((c :: rest).dropWhile (!isSeparator ·)).tail)

/-- The arithmetic of `double`. -/
structure Doubles (D : Type) where
  atof : List Char → D
  one : D
  thousand : D
  half : D
  add : D → D → D
  mul : D → D → D
  negative : D → Bool
  toInt32 : D → Int32
  toUInt32 : D → UInt32
  toUInt64 : D → UInt64

variable {D : Type} (d : Doubles D)

def isspace (c : Char) : Bool := c = ' ' || (9 ≤ c.toNat && c.toNat ≤ 13)

/-- The length without the spaces at the end, but not 0. -/
def trimmed (s : List Char) : Nat → Nat
  | 0 => 0
  | 1 => 1
  | len + 2 => if isspace (s.getD (len + 1) '0') then trimmed s (len + 1) else len + 2

def suffix (last : Char) : Option D :=
  if last = 'g' ∨ last = 'G' then
    some (d.mul (d.mul (d.mul d.one d.thousand) d.thousand) d.thousand)
  else if last = 'm' ∨ last = 'M' then some (d.mul (d.mul d.one d.thousand) d.thousand)
  else if last = 'k' ∨ last = 'K' then some (d.mul d.one d.thousand)
  else none

/-- `none` where the byte in front of the text would be read. -/
def parseFreq (s : List Char) : Option D :=
  match trimmed s s.length with
  | 0 => none
  | len + 1 =>
    match suffix d (s.getD len '0') with
    | some suff => some (d.mul suff (d.atof (s.take len)))
    | none => some (d.atof s)

/-- The calls of a command, and for `i` and `I` what they store. -/
inductive Operation where
  | get_i2c_register (reg : UInt8)
  | set_i2c_repeater (on : Bool)
  | set_i2c_register (reg : UInt8) (data : Int32) (mask : UInt8)
  | set_i2c_override (reg : UInt8) (data : Int32) (mask : UInt8)
  | override_if (freq : Int32) (flag : Int32)
  | set_and_get_tuner_bandwidth (bw : UInt32)
  | set_center_freq64 (freq : UInt64)
  | set_tuner_band_center (center : Int32)
  | set_tuner_sideband (sideband : Int32)
  | set_tuner_if_mode (if_mode : Int32)
  | set_tuner_gain (gain : Int32)
  | set_tuner_gain_mode (manual : Bool)
  | set_agc_mode (on : Bool)
deriving DecidableEq

/-- What `parse` looks at. A tuner need not have the functions for its registers. -/
structure Device where
  bw : UInt32
  freq : UInt64
  get_i2c_register : Option (UInt8 → Int32)
  set_i2c_register : Option (UInt8 → Int32 → UInt8 → Int32)
  set_i2c_override : Option (UInt8 → Int32 → UInt8 → Int32)

/-- What must not be used: a byte outside of the message, or nothing as a token or as a function. -/
inductive Fault where
  | outside (place : Int)
  | nullToken
  | nullFunction
deriving DecidableEq

structure Run where
  ops : List Operation
  replies : List (List Char)
  fault : Option Fault
deriving DecidableEq

def reply (run : Run) (response : String) : Run :=
  { run with replies := run.replies ++ [response.toList] }

def refuse (run : Run) : Run := reply run "?\n"

def nothing : Run := ⟨[], [], none⟩

/-- These are the values of `comm`. -/
inductive Command where
  | g
  | s
  | S
  | i
  | I
  | f
  | b
  | c
  | v
  | a
  | m
  | M
  | h
deriving DecidableEq

def command (token : List Char) : Option Command :=
  match token with
  | ['g'] => some .g
  | ['s'] => some .s
  | ['S'] => some .S
  | ['i'] => some .i
  | ['I'] => some .I
  | ['f'] => some .f
  | ['b'] => some .b
  | ['c'] => some .c
  | ['v'] => some .v
  | ['a'] => some .a
  | ['m'] => some .m
  | ['M'] => some .M
  | ['h'] => some .h
  | _ => none

def parseToken (token : Option (List Char)) : Int32 := parseNum (token.getD [])

/-- Shifts by 32 bits and more do not come up for the few digits here. -/
def hex (v : Int32) (num_digits : Nat) : String :=
  String.ofList (formatInHex (fun v _ => v) v num_digits)

def bin (v : Int32) (num_digits : Nat) : String :=
  String.ofList (formatInBin (fun v _ => v) v num_digits)

variable (dev : Device) (sendto : Nat → Int)

/-- A reply that is sent is followed by the common one. -/
def replyTwice (run : Run) (response : String) : Run :=
  if sendto run.replies.length < 0 then reply run response else refuse (reply run response)

def registerCommand (comm : Command) (saveptr : List Char) : Run :=
  let (token, saveptr) := strtok_r saveptr
  let parsedVal := parseToken token
  if token = none ∨ (comm ≠ .g ∧ parsedVal < 5) ∨ 32 < parsedVal then refuse nothing
  else
    let reg := parsedVal.toUInt32.toUInt8
    let (token, saveptr) := strtok_r saveptr
    if token = none ∧ comm ≠ .g then refuse nothing
    else
      let iVal := if comm = .g then 0 else parseToken token
      let token := if token = none then none else (strtok_r saveptr).1
      let mask := if token = none then 0xff else (parseToken token &&& 0xff).toUInt32.toUInt8
      if comm = .g then
        match dev.get_i2c_register with
        | none => { nothing with fault := some .nullFunction }
        | some get =>
          let val := get reg
          replyTwice sendto { nothing with ops := [.get_i2c_register reg] }
            s!"! {val} = {hex val 2} = {bin val 8}\n"
      else
        match dev.set_i2c_register, dev.set_i2c_override with
        | some set_register, some set_override =>
          let (op, val) :=
            if comm = .s then
              (Operation.set_i2c_register reg iVal mask, set_register reg iVal mask)
            else (Operation.set_i2c_override reg iVal mask, set_override reg iVal mask)
          replyTwice sendto
            { nothing with ops := [.set_i2c_repeater true, op, .set_i2c_repeater false] }
            s!"! {val}\n"
        | _, _ => replyTwice sendto nothing "! 0\n"

/-- What is done with a frequency, or with another number that is read as one. -/
def frequencyOps (comm : Command) (freqVal : D) : List Operation :=
  let override (flag : Int32) : List Operation :=
    [if d.negative freqVal then .override_if 0 0 else .override_if (d.toInt32 freqVal) flag,
      .set_and_get_tuner_bandwidth dev.bw, .set_center_freq64 dev.freq]
  match comm with
  | .i => override 1
  | .I => override 2
  | .f => [.set_center_freq64 (d.toUInt64 (d.add freqVal d.half))]
  | .b => [.set_and_get_tuner_bandwidth (d.toUInt32 freqVal)]
  | .c => [.set_tuner_band_center (d.toInt32 freqVal)]
  | .v => [.set_tuner_sideband (d.toInt32 freqVal)]
  | _ => []

def frequencyCommand (comm : Command) (saveptr : List Char) : Run :=
  match (strtok_r saveptr).1 with
  | none => { nothing with fault := some .nullToken }
  | some token =>
    match parseFreq d token with
    | none => { nothing with fault := some (.outside (-1)) }
    | some freqVal => refuse { nothing with ops := frequencyOps d dev comm freqVal }

def gainOps (comm : Command) (parsedVal : Int32) : List Operation :=
  match comm with
  | .a => [.set_tuner_if_mode parsedVal]
  | .m => [.set_tuner_gain parsedVal]
  | .M => [.set_tuner_gain_mode (parsedVal &&& 1 = 0), .set_agc_mode (parsedVal &&& 2 = 2)]
  | _ => []

def gainCommand (comm : Command) (saveptr : List Char) : Run :=
  match (strtok_r saveptr).1 with
  | none => refuse nothing
  | some token => refuse { nothing with ops := gainOps comm (parseNum token) }

def help : String :=
  "g <register>                  # get content of I2C ..\n" ++
  "s <register> <value> [<mask>] # set conten\n" ++
  "S <register> <value> [<mask>] # set content - keeping value in future\n" ++
  "i <IFfrequency>  # set IF frequency [0 .. 28'800'000]\n" ++
  "f <RFfrequency>  # set center frequency\n" ++
  "b <bandwidth>    # set tuner bandwidth\n" ++
  "c <frequency>    # set tuner bw center in output [-1'600'000 .. 1'600'000]\n" ++
  "v <sideband>     # set tuner sideband: 0 for LSB, 1 for USB\n" ++
  "a <tunerIFmode>  # set VGA: 0 for auto; in tenth dB or 10000+idx\n" ++
  "m <tuner gain>   # set tuner gain\n" ++
  "M <gainMode>     # 0 .. 3: digital rtl agc (0..1) * 2 + tuner agc (0..1)\n"

def execute (comm : Command) (saveptr : List Char) : Run :=
  match comm with
  | .g | .s | .S => registerCommand dev sendto comm saveptr
  | .i | .I | .f | .b | .c | .v => frequencyCommand d dev comm saveptr
  | .a | .m | .M => gainCommand comm saveptr
  | .h => refuse (reply nothing help)

def parse (message : List Char) : Run :=
  match message.take 100 with
  | [] => { nothing with fault := some (.outside (-1)) }
  | c :: str1 =>
    match strtok_r (c :: str1).dropLast with
    | (none, _) => refuse nothing
    | (some token, saveptr) =>
      match command token with
      | none => refuse nothing
      | some comm => execute d dev sendto comm saveptr

def received (datagram : Bytes) : List Char :=
  ((datagram.take (UDP_TX_BUFLEN - 1)).takeWhile (· ≠ 0)).map fun byte => Char.ofNat byte.toNat

def tokens (line : List Char) : List (List Char) :=
  (line.splitOnP isSeparator).filter (· ≠ [])

def withoutLineEnd (text : List Char) : List Char :=
  if text.getLast? = some '\n' then text.dropLast else text

def cut (text : List Char) : List Char := (text.take 100).dropLast

def registerNumber (comm : Command) (reg : Int32) : Prop :=
  (if comm = .g then 0 else 5) ≤ reg ∧ reg ≤ 32

instance (comm : Command) (reg : Int32) : Decidable (registerNumber comm reg) :=
  inferInstanceAs (Decidable (_ ∧ _))

def registerOps (comm : Command) : List (List Char) → List Operation
  | [] => []
  | reg :: rest =>
    let number := (parseNum reg).toUInt32.toUInt8
    if registerNumber comm (parseNum reg) then
      if comm = .g then [.get_i2c_register number]
      else
        match rest with
        | [] => []
        | val :: mask =>
          let mask := (mask.head?.map fun mask => (parseNum mask).toUInt32.toUInt8).getD 0xff
          [.set_i2c_repeater true,
            if comm = .s then .set_i2c_register number (parseNum val) mask
            else .set_i2c_override number (parseNum val) mask,
            .set_i2c_repeater false]
    else []

def commandOps (comm : Command) (args : List (List Char)) : List Operation :=
  match comm with
  | .g | .s | .S => registerOps comm args
  | .i | .I | .f | .b | .c | .v =>
    match args.head?.bind (parseFreq d) with
    | none => []
    | some freqVal => frequencyOps d dev comm freqVal
  | .a | .m | .M =>
    match args.head? with
    | none => []
    | some val => gainOps comm (parseNum val)
  | .h => []

def asked (line : List (List Char)) : List Operation :=
  match line with
  | [] => []
  | token :: args =>
    match command token with
    | none => []
    | some comm => commandOps d dev comm args

/-- A datagram is handled with care, and its sender gets one answer. -/
structure Proper (datagram : Bytes) : Prop where
  safe : (parse d dev sendto (received datagram)).fault = none
  ops : ∀ op ∈ (parse d dev sendto (received datagram)).ops,
    op ∈ asked d dev (tokens (withoutLineEnd (received datagram)))
  reply : (parse d dev sendto (received datagram)).replies.length = 1

/-- Commands with a register are answered once only when it is refused, and those with a frequency
only when it is there. -/
def OneAnswer (comm : Command) (args : List (List Char)) : Prop :=
  match comm with
  | .g => ∀ reg ∈ args.head?, 32 < parseNum reg
  | .s | .S => ∀ reg ∈ args.head?, 2 ≤ args.length → parseNum reg < 5 ∨ 32 < parseNum reg
  | .i | .I | .f | .b | .c | .v => args ≠ []
  | .a | .m | .M => True
  | .h => False

def AnsweredOnce (line : List (List Char)) : Prop :=
  match line with
  | [] => True
  | token :: args => ∀ comm ∈ command token, OneAnswer comm args

theorem tokens_skip (line : List Char) : tokens (line.dropWhile isSeparator) = tokens line := by
  induction line with
  | nil => rfl
  | cons c line ih =>
    cases separator : isSeparator c with
    | false => rw [List.dropWhile_cons_of_neg (by rw [separator]; decide)]
    | true =>
      rw [List.dropWhile_cons_of_pos separator, ih, tokens, tokens,
        List.splitOnP_cons_eq_if_modifyHead, if_pos separator]
      rfl

theorem dropWhile_head {p : Char → Bool} {line rest : List Char} {c : Char}
    (start : line.dropWhile p = c :: rest) : p c = false := by
  have some_left : line.dropWhile p ≠ [] := by
    rw [start]
    exact List.cons_ne_nil c rest
  have here := List.head_dropWhile_not p some_left
  simp only [start, List.head_cons] at here
  exact here

theorem tokens_word {word : List Char} (some_word : word ≠ [])
    (inside : ∀ c ∈ word, isSeparator c = false) :
    tokens word = [word] ∧ ∀ c rest, isSeparator c = true →
      tokens (word ++ c :: rest) = word :: tokens rest := by
  constructor
  · rw [tokens, List.splitOnP_eq_singleton inside]
    exact List.filter_cons_of_pos (decide_eq_true some_word)
  · intro c rest separator
    rw [tokens, List.splitOnP_append_cons_of_forall_mem inside c separator]
    exact List.filter_cons_of_pos (decide_eq_true some_word)

theorem tokens_strtok (line : List Char) : tokens line =
    match strtok_r line with
    | (none, _) => []
    | (some token, saveptr) => token :: tokens saveptr := by
  rw [← tokens_skip, strtok_r]
  cases start : line.dropWhile isSeparator with
  | nil => rfl
  | cons c rest =>
    have whole := @List.takeWhile_append_dropWhile Char (!isSeparator ·) (c :: rest)
    have inside := fun x => @List.mem_takeWhile_imp Char (!isSeparator ·) (c :: rest) x
    have first : (!isSeparator c) = true := by
      rw [dropWhile_head start]
      rfl
    have some_word : (c :: rest).takeWhile (!isSeparator ·) ≠ [] := by
      rw [@List.takeWhile_cons_of_pos Char (!isSeparator ·) c rest first]
      exact List.cons_ne_nil c _
    simp only
    generalize (c :: rest).takeWhile (!isSeparator ·) = word at whole inside some_word
    obtain ⟨last, more⟩ := tokens_word some_word fun x member =>
      (Bool.not_eq_true' _).mp (inside x member)
    cases behind : (c :: rest).dropWhile (!isSeparator ·) with
    | nil =>
      rw [behind, List.append_nil] at whole
      rw [← whole]
      exact last
    | cons separator saveptr =>
      rw [behind] at whole
      rw [← whole]
      have ends : (!isSeparator separator) = false := dropWhile_head behind
      exact more separator saveptr ((Bool.not_eq_false' _).mp ends)

theorem strtok_word {line token saveptr : List Char}
    (next : strtok_r line = (some token, saveptr)) : token ≠ [] := by
  rw [strtok_r] at next
  cases start : line.dropWhile isSeparator with
  | nil =>
    rw [start] at next
    cases next
  | cons c rest =>
    have first : (!isSeparator c) = true := by
      rw [dropWhile_head start]
      rfl
    rw [start] at next
    cases next
    rw [@List.takeWhile_cons_of_pos Char (!isSeparator ·) c rest first]
    exact List.cons_ne_nil c _

theorem tokens_head (saveptr : List Char) : (tokens saveptr).head? = (strtok_r saveptr).1 := by
  rw [tokens_strtok]
  rcases strtok_r saveptr with ⟨_ | token, rest⟩ <;> rfl

variable {d dev sendto}

theorem trimmed_pos (s : List Char) {len : Nat} (some_left : 0 < len) : 0 < trimmed s len := by
  induction len using trimmed.induct s with
  | case1 => cases some_left
  | case2 => exact Nat.one_pos
  | case3 len space ih =>
    rw [trimmed, if_pos space]
    exact ih (Nat.succ_pos len)
  | case4 len other =>
    rw [trimmed, if_neg other]
    exact Nat.succ_pos _

theorem parseFreq_word {word : List Char} (some_word : word ≠ []) :
    ∃ freqVal, parseFreq d word = some freqVal := by
  have left := trimmed_pos word (List.length_pos_iff.mpr some_word)
  rw [parseFreq]
  cases len : trimmed word word.length with
  | zero => omega
  | succ len =>
    simp only
    split
    · exact ⟨_, rfl⟩
    · exact ⟨_, rfl⟩

theorem frequency_run (comm : Command) (saveptr : List Char) :
    (tokens saveptr ≠ [] → frequencyCommand d dev comm saveptr =
      refuse { nothing with ops := match (tokens saveptr).head?.bind (parseFreq d) with
        | none => []
        | some freqVal => frequencyOps d dev comm freqVal }) ∧
    (¬ tokens saveptr ≠ [] → (frequencyCommand d dev comm saveptr).fault ≠ none) := by
  rw [tokens_head, tokens_strtok, frequencyCommand]
  cases next : strtok_r saveptr with
  | mk token rest =>
    cases token with
    | none => exact ⟨fun some_left => absurd rfl some_left, fun _ none => by cases none⟩
    | some token =>
      obtain ⟨freqVal, read⟩ := @parseFreq_word D d token (strtok_word next)
      simp only [Option.bind_some, read]
      exact ⟨fun _ => trivial, fun empty => absurd (List.cons_ne_nil _ _) empty⟩

theorem gain_run (comm : Command) (saveptr : List Char) : gainCommand comm saveptr =
    match (tokens saveptr).head? with
    | none => refuse nothing
    | some val => refuse { nothing with ops := gainOps comm (parseNum val) } := by
  rw [tokens_head, gainCommand]

section Register

variable {comm : Command} {saveptr : List Char}

theorem replyTwice_length (delivered : ∀ k, 0 ≤ sendto k) (run : Run) (response : String) :
    (replyTwice sendto run response).replies.length = run.replies.length + 2 := by
  have sent : ¬ sendto run.replies.length < 0 := Int.not_lt.mpr (delivered _)
  rw [replyTwice, if_neg sent]
  simp [refuse, reply]

theorem register_refused (register : comm = .g ∨ comm = .s ∨ comm = .S)
    (one : OneAnswer comm (tokens saveptr)) :
    registerCommand dev sendto comm saveptr = refuse nothing ∧
      registerOps comm (tokens saveptr) = [] := by
  rw [tokens_strtok] at one ⊢
  rw [registerCommand]
  generalize strtok_r saveptr = first at one ⊢
  rcases first with ⟨_ | reg, saveptr⟩
  · exact ⟨if_pos (.inl rfl), rfl⟩
  · simp only at one ⊢
    by_cases wrong : (comm ≠ .g ∧ parseNum reg < 5) ∨ 32 < parseNum reg
    · refine ⟨if_pos (.inr wrong), ?_⟩
      have number : ¬ registerNumber comm (parseNum reg) := by
        intro ⟨low, high⟩
        rcases wrong with ⟨set, small⟩ | large
        · rw [if_neg set] at low
          exact Int32.not_le.mpr small low
        · exact Int32.not_le.mpr large high
      simp only [registerOps, if_neg number]
    · rw [tokens_strtok saveptr] at one ⊢
      have set : comm ≠ .g := by
        rintro rfl
        exact wrong (.inr (one reg rfl))
      generalize strtok_r saveptr = second at one ⊢
      rcases second with ⟨_ | val, saveptr⟩
      · constructor
        · have right : ¬ (some reg = none ∨ (comm ≠ .g ∧ parseToken (some reg) < 5) ∨
              32 < parseToken (some reg)) := not_or.mpr ⟨Option.some_ne_none reg, wrong⟩
          rw [if_neg right]
          exact if_pos ⟨rfl, set⟩
        · simp [registerOps, if_neg set]
      · have two : 2 ≤ (reg :: val :: tokens saveptr).length := by
          rw [List.length_cons, List.length_cons]
          omega
        rcases register with rfl | rfl | rfl
        · exact absurd rfl set
        · exact absurd ((one reg rfl two).imp_left fun small => ⟨set, small⟩) wrong
        · exact absurd ((one reg rfl two).imp_left fun small => ⟨set, small⟩) wrong

theorem register_answered (delivered : ∀ k, 0 ≤ sendto k)
    (register : comm = .g ∨ comm = .s ∨ comm = .S) (twice : ¬ OneAnswer comm (tokens saveptr)) :
    (registerCommand dev sendto comm saveptr).fault = some .nullFunction ∨
      (registerCommand dev sendto comm saveptr).replies.length = 2 := by
  have answered (run : Run) (none : run.replies = []) (response : String) :
      (replyTwice sendto run response).replies.length = 2 := by
    rw [replyTwice_length delivered, none]
    rfl
  rw [tokens_strtok] at twice
  rw [registerCommand]
  generalize strtok_r saveptr = first at twice ⊢
  rcases first with ⟨_ | reg, saveptr⟩
  · refine absurd ?_ twice
    rcases register with rfl | rfl | rfl
    · exact fun _ none => nomatch none
    · exact fun _ none => nomatch none
    · exact fun _ none => nomatch none
  · simp only at twice ⊢
    have right : ¬ ((comm ≠ .g ∧ parseNum reg < 5) ∨ 32 < parseNum reg) := by
      intro wrong
      apply twice
      rcases register with rfl | rfl | rfl
      · intro _ same
        cases same
        exact wrong.resolve_left fun set => set.1 rfl
      · intro _ same _
        cases same
        exact wrong.imp_left And.right
      · intro _ same _
        cases same
        exact wrong.imp_left And.right
    have right : ¬ (some reg = none ∨ (comm ≠ .g ∧ parseToken (some reg) < 5) ∨
        32 < parseToken (some reg)) := not_or.mpr ⟨Option.some_ne_none reg, right⟩
    rw [if_neg right]
    by_cases get : comm = .g
    · have more : ¬ ((strtok_r saveptr).1 = none ∧ comm ≠ .g) := fun both => both.2 get
      rw [if_neg more, if_pos get]
      cases dev.get_i2c_register with
      | none => exact .inl rfl
      | some get => exact .inr (answered _ rfl _)
    · have more : ¬ ((strtok_r saveptr).1 = none ∧ comm ≠ .g) := by
        intro ⟨missing, set⟩
        apply twice
        rw [tokens_strtok]
        generalize strtok_r saveptr = second at missing ⊢
        rcases second with ⟨_ | val, saveptr⟩
        · rcases register with rfl | rfl | rfl
          · exact absurd rfl set
          · exact fun _ _ few => absurd few (Nat.not_succ_le_self 1)
          · exact fun _ _ few => absurd few (Nat.not_succ_le_self 1)
        · cases missing
      rw [if_neg more, if_neg get]
      cases dev.set_i2c_register with
      | none => exact .inr (answered _ rfl _)
      | some set_register =>
        cases dev.set_i2c_override with
        | none => exact .inr (answered _ rfl _)
        | some set_override => exact .inr (answered _ rfl _)

end Register

theorem command_run (delivered : ∀ k, 0 ≤ sendto k) (comm : Command) (saveptr : List Char) :
    (OneAnswer comm (tokens saveptr) → execute d dev sendto comm saveptr =
      refuse { nothing with ops := commandOps d dev comm (tokens saveptr) }) ∧
    (¬ OneAnswer comm (tokens saveptr) → (execute d dev sendto comm saveptr).fault ≠ none ∨
      (execute d dev sendto comm saveptr).replies.length = 2) := by
  have registers (register : comm = .g ∨ comm = .s ∨ comm = .S) :
      (OneAnswer comm (tokens saveptr) → registerCommand dev sendto comm saveptr =
        refuse { nothing with ops := registerOps comm (tokens saveptr) }) ∧
      (¬ OneAnswer comm (tokens saveptr) →
        (registerCommand dev sendto comm saveptr).fault ≠ none ∨
          (registerCommand dev sendto comm saveptr).replies.length = 2) := by
    constructor
    · intro one
      obtain ⟨run, none⟩ := @register_refused dev sendto comm saveptr register one
      rw [run, none]
      rfl
    · intro twice
      exact (@register_answered dev sendto comm saveptr delivered register twice).imp_left
        fun fault none => by rw [fault] at none; cases none
  have frequencies (comm : Command) := @frequency_run D d dev comm saveptr
  have gains (comm : Command) : gainCommand comm saveptr =
      refuse { nothing with ops := match (tokens saveptr).head? with
        | none => []
        | some val => gainOps comm (parseNum val) } := by
    rw [gain_run]
    cases (tokens saveptr).head? with
    | none => rfl
    | some val => rfl
  cases comm with
  | g => exact registers (.inl rfl)
  | s => exact registers (.inr (.inl rfl))
  | S => exact registers (.inr (.inr rfl))
  | i => exact (frequencies .i).imp_right fun wrong no => .inl (wrong no)
  | I => exact (frequencies .I).imp_right fun wrong no => .inl (wrong no)
  | f => exact (frequencies .f).imp_right fun wrong no => .inl (wrong no)
  | b => exact (frequencies .b).imp_right fun wrong no => .inl (wrong no)
  | c => exact (frequencies .c).imp_right fun wrong no => .inl (wrong no)
  | v => exact (frequencies .v).imp_right fun wrong no => .inl (wrong no)
  | a => exact ⟨fun _ => gains .a, fun no => absurd trivial no⟩
  | m => exact ⟨fun _ => gains .m, fun no => absurd trivial no⟩
  | M => exact ⟨fun _ => gains .M, fun no => absurd trivial no⟩
  | h => exact ⟨False.elim, fun _ => .inr rfl⟩

theorem parse_run (delivered : ∀ k, 0 ≤ sendto k) {message : List Char} (some_text : message ≠ []) :
    (AnsweredOnce (tokens (cut message)) → parse d dev sendto message =
      refuse { nothing with ops := asked d dev (tokens (cut message)) }) ∧
    (¬ AnsweredOnce (tokens (cut message)) → (parse d dev sendto message).fault ≠ none ∨
      (parse d dev sendto message).replies.length = 2) := by
  obtain ⟨c, rest, rfl⟩ := List.exists_cons_of_ne_nil some_text
  rw [tokens_strtok, parse, List.take_succ_cons]
  have line : (c :: rest.take 99).dropLast = cut (c :: rest) := rfl
  simp only [line]
  generalize strtok_r (cut (c :: rest)) = first
  rcases first with ⟨_ | token, saveptr⟩
  · exact ⟨fun _ => rfl, fun no => absurd trivial no⟩
  · simp only [AnsweredOnce, asked]
    cases command token with
    | none => exact ⟨fun _ => rfl, fun no => absurd (fun _ none => nomatch none) no⟩
    | some comm =>
      have run := @command_run D d dev sendto delivered comm saveptr
      constructor
      · intro one
        exact run.1 (one comm rfl)
      · intro twice
        exact run.2 fun one => twice fun _ same => by cases same; exact one

/-- The text is not empty, the command is one that gets one answer, and what is cut off does not
change what it asks for. -/
theorem parse_proper_iff {D : Type} (d : Doubles D) (dev : Device) {sendto : Nat → Int}
    (delivered : ∀ k, 0 ≤ sendto k) (datagram : Bytes) :
    Proper d dev sendto datagram ↔ received datagram ≠ [] ∧
      AnsweredOnce (tokens (cut (received datagram))) ∧
      ∀ op ∈ asked d dev (tokens (cut (received datagram))),
        op ∈ asked d dev (tokens (withoutLineEnd (received datagram))) := by
  by_cases empty : received datagram = []
  · constructor
    · intro proper
      have safe := proper.safe
      rw [empty] at safe
      cases safe
    · intro ⟨some_text, _⟩
      exact absurd empty some_text
  · obtain ⟨once, wrong⟩ := @parse_run D d dev sendto delivered (received datagram) empty
    constructor
    · intro proper
      have one : AnsweredOnce (tokens (cut (received datagram))) := by
        by_contra twice
        cases wrong twice with
        | inl fault => exact fault proper.safe
        | inr two =>
          have reply := proper.reply
          omega
      have ops := proper.ops
      rw [once one] at ops
      exact ⟨empty, one, ops⟩
    · intro ⟨_, one, same⟩
      have run := once one
      constructor
      · rw [run]
        rfl
      · rw [run]
        exact same
      · rw [run]
        rfl

def wholeNumbers : Doubles Int where
  atof := fun text => (parseNum text).toInt
  one := 1
  thousand := 1000
  half := 0
  add := (· + ·)
  mul := (· * ·)
  negative := (· < 0)
  toInt32 := Int32.ofInt
  toUInt32 := UInt32.ofInt
  toUInt64 := UInt64.ofInt

/-- A tuner without access to its registers. -/
def plainTuner : Device := ⟨0, 0, none, none, none⟩

theorem parse_proper_gain :
    Proper wholeNumbers plainTuner (fun _ => 2) [109, 32, 52, 57, 54, 10] := by
  have line : tokens (cut (received [109, 32, 52, 57, 54, 10])) = [['m'], ['4', '9', '6']] := by
    decide +kernel
  have same : withoutLineEnd (received [109, 32, 52, 57, 54, 10]) =
      cut (received [109, 32, 52, 57, 54, 10]) := by
    decide +kernel
  apply (parse_proper_iff wholeNumbers plainTuner (fun _ => by decide) _).mpr
  refine ⟨by decide, ?_, ?_⟩
  · rw [line]
    intro comm gain
    cases gain
    trivial
  · rw [same]
    exact fun _ member => member

/-- An empty datagram, a frequency that is missing, and a call for help. -/
theorem parse_improper : ¬ Proper wholeNumbers plainTuner (fun _ => 2) [] ∧
    ¬ Proper wholeNumbers plainTuner (fun _ => 2) [102, 10] ∧
      ¬ Proper wholeNumbers plainTuner (fun _ => 2) [104, 10] := by
  refine ⟨?_, ?_, ?_⟩
  · intro proper
    exact absurd proper.safe (by decide)
  · intro proper
    exact absurd proper.safe (by decide)
  · intro proper
    exact absurd proper.reply (by decide)

end Soapy.Rtl.Udp
