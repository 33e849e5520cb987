import Soapy.Lib.Action
import Soapy.Rtl.TunerRuns

/-! # The option string

What `rtlsdr_set_opt_string` does for each option, next to what the option says. An option names a
call of the library, or a field of the device, whose range stands in the message about it.
-/

namespace Soapy.Rtl.OptionString

open Lib
open Soapy.Rtl.Tuner (Prog Parts Dongle R82xxConfig Stuck after atol atoi sidebandOf optParts
  getDev modifyDev)

/-- The fields that no call below looks at, except to write a message. `F` are the floats. -/
structure Settings (F : Type) where
  called_set_opt : Bool
  verbose : Int32
  r82xx_c_verbose : Int32
  vco_algo : UInt8
  softagc_verbose : Bool
  scanTimeMs : F
  deadTimeMs : F

/-- The device, and the argument `verbose`. -/
structure Parsing (P F : Type) where
  dongle : Dongle P
  settings : Settings F
  verbose : Int32

/-- `atof`, and the default of the times. -/
structure Floats (F : Type) where
  atof : Bytes → F
  hundred : F

variable {P F : Type}

abbrev Act (P F : Type) := Action (Parsing P F) Stuck

def Parsing.setDev (s : Parsing P F) (f : Tuner.Dev → Tuner.Dev) : Parsing P F :=
  { s with dongle := { s.dongle with dev := f s.dongle.dev } }

def Parsing.setConfig (s : Parsing P F) (f : R82xxConfig → R82xxConfig) : Parsing P F :=
  { s with dongle := { s.dongle with
      chips := { s.dongle.chips with r82xx_c := f s.dongle.chips.r82xx_c } } }

def setter (call : Prog P Int32) : Act P F Int32 := fun s =>
  ((call.run Dongle.serve s.dongle).1, { s with dongle := (call.run Dongle.serve s.dongle).2 })

/-- The options, with what follows the `=`. -/
inductive Opt where
  | verbose
  | f (text : Bytes)
  | bw (text : Bytes)
  | bc (text : Bytes)
  | sb (text : Bytes)
  | agc (text : Bytes)
  | gain (text : Bytes)
  | agcv (text : Bytes)
  | ifm (text : Bytes)
  | dagc (text : Bytes)
  | ds (text : Bytes)
  | dm (text : Bytes)
  | harm (text : Bytes)
  | vcocmin (text : Bytes)
  | vcocmax (text : Bytes)
  | vcoalgo (text : Bytes)
  | tp (text : Bytes)
  | t (text : Bytes)
  | softagc (text : Bytes)
  | softscantime (text : Bytes)
  | softdeadtime (text : Bytes)
  | softverbose
  | unknown

/-- In the order in which they are compared; the UDP server is not built. -/
def compared (optPart : Bytes) : List (Option Opt) :=
  [ if optPart = ascii "verbose" ∨ optPart = ascii "v" then some .verbose else none
  , (after "f=" optPart).map .f
  , (after "bw=" optPart).map .bw
  , (after "bc=" optPart).map .bc
  , (after "sb=" optPart).map .sb
  , (after "agc=" optPart).map .agc
  , (after "gain=" optPart).map .gain
  , (after "agcv=" optPart).map .agcv
  , (after "ifm=" optPart).map .ifm
  , (after "dagc=" optPart).map .dagc
  , (after "ds=" optPart).map .ds
  , (after "dm=" optPart).map .dm
  , (after "harm=" optPart).map .harm
  , (after "vcocmin=" optPart).map .vcocmin
  , (after "vcocmax=" optPart).map .vcocmax
  , (after "vcoalgo=" optPart).map .vcoalgo
  , (after "tp=" optPart <|> after "Tp=" optPart <|> after "TP=" optPart).map .tp
  , (after "t=" optPart <|> after "T=" optPart).map .t
  , (after "softagc=" optPart).map .softagc
  , (after "softscantime=" optPart).map .softscantime
  , (after "softdeadtime=" optPart).map .softdeadtime
  , if optPart = ascii "softverbose" then some .softverbose else none ]

/-- The first one that compares equal. -/
def optionOf (optPart : Bytes) : Opt := (compared optPart).reduceOption.headD .unknown

def Dev.softagc (on : Int32) (dev : Tuner.Dev) : Tuner.Dev :=
  { dev with
    softAgcMode := on.toUInt32
    agcState := if on ≠ 0 then .init else .off }

/-- `dev->verbose` is counted up, and `level` becomes the verbosity of all. -/
def Parsing.setVerbose (s : Parsing P F) (level : Int32) : Parsing P F :=
  { s with
    verbose := level
    settings := { s.settings with verbose := level, r82xx_c_verbose := level } }

def Parsing.set (s : Parsing P F) (f : Settings F → Settings F) : Parsing P F :=
  { s with settings := f s.settings }

def assign (f : Parsing P F → Parsing P F) : Act P F Int32 := fun s => (.ok 0, f s)

/-- A value out of its range is an error in the verbose case alone, and none below 0. -/
def assignWithin (val high : Int32) (f : Parsing P F → Parsing P F) : Act P F Int32 := fun s =>
  if 0 ≤ val ∧ val ≤ high then (.ok 0, f s)
  else if s.verbose ≠ 0 then (.ok 1, s)
  else (.ok 0, s)

section Calls

variable (parts : Parts P) (floats : Floats F)

/-- The mode or the threshold, and what `rtlsdr_set_ds_mode` is called with. -/
def Dev.setDm (dm : UInt32) (dev : Tuner.Dev) : Tuner.Dev :=
  if dm ≤ 4 then { dev with direct_sampling_mode := dm }
  else { dev with direct_sampling_threshold := dm }

def applyDm (dm : UInt32) : Prog P Int32 := do
  modifyDev (Dev.setDm dm)
  let dev ← getDev
  Tuner.set_ds_mode parts dev.direct_sampling_mode dev.direct_sampling_threshold

/-- The branches of `rtlsdr_set_opt_string`. -/
def Opt.apply : Opt → Act P F Int32
  | .verbose => assign fun s => s.setVerbose (s.settings.verbose + 1)
  | .f text => setter (Tuner.set_center_freq64 parts (parts.parse_uint64 text))
  | .bw text => setter (Tuner.set_tuner_bandwidth parts (UInt32.ofInt (atol text * 1000)))
  | .bc text => setter (Tuner.set_tuner_band_center parts (parts.parse_int32 text))
  | .sb text => setter (Tuner.set_tuner_sideband parts (sidebandOf text))
  | .agc text => setter (Tuner.set_tuner_gain_mode parts (1 - atoi text))
  | .gain text => setter (Tuner.set_tuner_gain parts (atoi text))
  | .agcv text => setter (Tuner.set_tuner_if_mode parts (if atoi text < 0 then 0 else atoi text))
  | .ifm text => setter (Tuner.set_tuner_if_mode parts (atoi text))
  | .dagc text => setter (Tuner.set_agc_mode (atoi text))
  | .ds text =>
    setter (Tuner.set_direct_sampling parts (Tuner.set_center_freq64 parts) (atoi text))
  | .dm text => setter (applyDm parts (parts.parse_uint32 text))
  | .harm text => assignWithin (atoi text) 16 fun s =>
    s.setConfig fun c => { c with harmonic := atoi text }
  | .vcocmin text => assignWithin (atoi text) 7 fun s =>
    s.setConfig fun c => { c with vco_curr_min := (7 - atoi text).toUInt32.toUInt8 }
  | .vcocmax text => assignWithin (atoi text) 7 fun s =>
    s.setConfig fun c => { c with vco_curr_max := (7 - atoi text).toUInt32.toUInt8 }
  | .vcoalgo text => assignWithin (atoi text) 2 fun s =>
    s.setConfig fun c => { c with vco_curr_max := (atoi text).toUInt32.toUInt8 }
  | .tp text => assign fun s =>
    s.setDev fun dev => { dev with biast_gpio_pin_no := (atoi text).toUInt32.toUInt8 }
  | .t text => setter (Tuner.set_bias_tee (atoi text))
  | .softagc text => assign fun s => s.setDev (Dev.softagc (atoi text))
  | .softscantime text => assign fun s => s.set fun c => { c with scanTimeMs := floats.atof text }
  | .softdeadtime text => assign fun s => s.set fun c => { c with deadTimeMs := floats.atof text }
  | .softverbose => assign fun s => s.set fun c => { c with softagc_verbose := true }
  | .unknown => pure (-1)

def applyOptions : List Bytes → Int32 → Act P F Int32
  | [], retAll => pure retAll
  | optPart :: rest, retAll => do
    let ret ← (optionOf optPart).apply parts floats
    applyOptions rest (if ret < 0 then ret else retAll)

def Parsing.begun (s : Parsing P F) : Parsing P F :=
  s.set fun c => { c with
    called_set_opt := true
    deadTimeMs := floats.hundred
    scanTimeMs := floats.hundred }

/-- `softagc_init` starts a thread, which makes calls of its own. -/
def softagc_init : Act P F Unit := do
  let s ← Action.get
  if s.dongle.dev.agcState ≠ .off then
    let _ ← setter (Tuner.set_tuner_gain_mode parts 1)

/-- `rtlsdr_set_opt_string`; `strdup` gives a copy. -/
def set_opt_string (opts : Bytes) : Act P F Int32 := do
  Action.modify (Parsing.begun floats)
  let retAll ← applyOptions parts floats (optParts opts) 0
  softagc_init parts
  return retAll

/-! ## The dongle

The fields above are left out where only the tuner counts. -/

/-- The same answer, as far as it can become that of the string. -/
def Same : Except Stuck Int32 → Except Stuck Int32 → Prop
  | .ok ret, .ok ret' => ret < 0 ∨ ret' < 0 → ret = ret'
  | .error e, .error e' => e = e'
  | _, _ => False

def Agrees (act : Act P F Int32) (program : Prog P Int32) : Prop :=
  ∀ s, (act s).2.dongle = (program.run Dongle.serve s.dongle).2 ∧
    Same (act s).1 (program.run Dongle.serve s.dongle).1

theorem Same.refl (answer : Except Stuck Int32) : Same answer answer := by
  cases answer with
  | ok ret => exact fun _ => rfl
  | error e => rfl

theorem setter_agrees (program : Prog P Int32) : Agrees (F := F) (setter program) program :=
  fun _ => ⟨rfl, .refl _⟩

variable {f : Parsing P F → Parsing P F}

theorem assign_agrees (kept : ∀ s, (f s).dongle = s.dongle) :
    Agrees (assign f) (pure 0) := fun s => ⟨kept s, .refl (.ok 0)⟩

theorem setDev_agrees (f : Tuner.Dev → Tuner.Dev) :
    Agrees (assign fun s : Parsing P F => s.setDev f) (do modifyDev f; return 0) :=
  fun _ => ⟨rfl, .refl (.ok 0)⟩

theorem assignWithin_agrees (val high : Int32) (f : R82xxConfig → R82xxConfig) :
    Agrees (assignWithin val high fun s : Parsing P F => s.setConfig f)
      (Tuner.setConfig val high f) := by
  intro s
  rw [assignWithin, Tuner.setConfig]
  split
  · exact ⟨rfl, .refl (.ok 0)⟩
  · split
    · exact ⟨rfl, fun negative => absurd negative (by decide)⟩
    · exact ⟨rfl, .refl (.ok 0)⟩

def Listed (options : List (Option Opt)) (programs : List (Option (Prog P Int32))) : Prop :=
  List.Forall₂ (Option.Rel fun opt program => Agrees (opt.apply parts floats) program) options
    programs

theorem map_rel {opt : Bytes → Opt} {program : Bytes → Prog P Int32}
    (agrees : ∀ text, Agrees ((opt text).apply parts floats) (program text)) (text : Option Bytes) :
    Option.Rel (fun opt program => Agrees (opt.apply parts floats) program) (text.map opt)
      (text.map program) := by
  cases text with
  | none => exact .none
  | some text => exact .some (agrees text)

variable {opt : Opt}

theorem if_rel {program : Prog P Int32} (agrees : Agrees (opt.apply parts floats) program)
    (c : Prop) [Decidable c] :
    Option.Rel (fun opt program => Agrees (opt.apply parts floats) program)
      (if c then some opt else none) (if c then some program else none) := by
  split
  · exact .some agrees
  · exact .none

theorem compared_listed (optPart : Bytes) :
    Listed parts floats (compared optPart) (Tuner.options parts optPart) := by
  refine .cons (if_rel parts floats ?_ _) ?_
  · exact assign_agrees fun _ => rfl
  iterate 11
    refine .cons (map_rel parts floats ?_ _) ?_
    · exact fun _ => setter_agrees _
  iterate 4
    refine .cons (map_rel parts floats ?_ _) ?_
    · exact fun _ => assignWithin_agrees _ _ _
  refine .cons (map_rel parts floats ?_ _) ?_
  · exact fun _ => setDev_agrees _
  refine .cons (map_rel parts floats ?_ _) ?_
  · exact fun _ => setter_agrees _
  refine .cons (map_rel parts floats ?_ _) ?_
  · exact fun _ => setDev_agrees _
  iterate 2
    refine .cons (map_rel parts floats ?_ _) ?_
    · exact fun _ => assign_agrees fun _ => rfl
  refine .cons (if_rel parts floats ?_ _) .nil
  exact assign_agrees fun _ => rfl

theorem Listed.head {options : List (Option Opt)} {programs : List (Option (Prog P Int32))}
    (listed : Listed parts floats options programs) :
    Agrees ((options.reduceOption.headD .unknown).apply parts floats)
      (programs.reduceOption.headD (pure (-1))) := by
  induction listed with
  | nil => exact fun _ => ⟨rfl, .refl (.ok (-1))⟩
  | cons rel _ ih =>
    cases rel with
    | none => exact ih
    | some agrees => exact agrees

theorem applyOption_agrees (optPart : Bytes) :
    Agrees ((optionOf optPart).apply parts floats) (Tuner.applyOption parts optPart) :=
  (compared_listed parts floats optPart).head

def Simulates {α : Type} (act : Act P F α) (program : Prog P α) : Prop :=
  ∀ s, (act s).2.dongle = (program.run Dongle.serve s.dongle).2 ∧
    (act s).1 = (program.run Dongle.serve s.dongle).1

theorem Simulates.bind {α β : Type} {act : Act P F α} {next : α → Act P F β} {program : Prog P α}
    {rest : α → Prog P β} (first : Simulates act program)
    (second : ∀ a, Simulates (next a) (rest a)) : Simulates (act >>= next) (program >>= rest) := by
  intro s
  obtain ⟨dongle, answers⟩ := first s
  cases acted : act s with
  | mk answer s' =>
    cases ran : program.run Dongle.serve s.dongle with
    | mk answer' d =>
      rw [acted, ran] at dongle answers
      cases answers
      cases dongle
      cases answer with
      | error e =>
        rw [Action.bind_error acted, Program.run_bind_error ran]
        exact ⟨rfl, rfl⟩
      | ok a =>
        rw [Action.bind_ok acted, Program.run_bind_ok ran]
        exact second a s'

theorem applyOptions_simulates (optParts : List Bytes) (retAll : Int32) :
    Simulates (applyOptions parts floats optParts retAll)
      (Tuner.applyOptions parts optParts retAll) := by
  induction optParts generalizing retAll with
  | nil => exact fun _ => ⟨rfl, rfl⟩
  | cons optPart rest ih =>
    intro s
    obtain ⟨dongle, answers⟩ := applyOption_agrees parts floats optPart s
    cases acted : (optionOf optPart).apply parts floats s with
    | mk answer s' =>
      cases ran : (Tuner.applyOption parts optPart).run Dongle.serve s.dongle with
      | mk answer' d =>
        rw [acted, ran] at dongle answers
        cases dongle
        cases answer with
        | error e =>
          cases answer' with
          | error e' =>
            cases answers
            rw [applyOptions, Tuner.applyOptions, Action.bind_error acted,
              Program.run_bind_error ran]
            exact ⟨rfl, rfl⟩
          | ok ret => exact answers.elim
        | ok ret =>
          cases answer' with
          | error e' => exact answers.elim
          | ok ret' =>
            rw [applyOptions, Tuner.applyOptions, Action.bind_ok acted,
              Program.run_bind_ok ran]
            have same : (if ret < 0 then ret else retAll) =
                if ret' < 0 then ret' else retAll := by
              by_cases negative : ret < 0 ∨ ret' < 0
              · rw [answers negative]
              · rw [not_or] at negative
                rw [if_neg negative.1, if_neg negative.2]
            rw [same]
            exact ih _ s'

theorem softagc_init_simulates (retAll : Int32) :
    Simulates (F := F) (do softagc_init parts; return retAll) (do
      let dev ← getDev
      if dev.agcState ≠ .off then
        let _ ← Tuner.set_tuner_gain_mode parts 1
      return retAll) := by
  intro s
  by_cases on : s.dongle.dev.agcState ≠ .off
  · have started : softagc_init (F := F) parts s =
        (do let _ ← setter (Tuner.set_tuner_gain_mode parts 1)) s := congrFun (if_pos on) s
    change _ = ((if s.dongle.dev.agcState ≠ .off then _ else _ : Prog P Int32).run Dongle.serve
      s.dongle).2 ∧ _ = ((if s.dongle.dev.agcState ≠ .off then _ else _ : Prog P Int32).run
        Dongle.serve s.dongle).1
    rw [if_pos on]
    cases ran : (Tuner.set_tuner_gain_mode parts 1).run Dongle.serve s.dongle with
    | mk answer d =>
      have called : setter (F := F) (Tuner.set_tuner_gain_mode parts 1) s =
          (answer, { s with dongle := d }) := by
        rw [setter, ran]
      cases answer with
      | error e =>
        rw [Action.bind_error (started.trans (Action.bind_error called)),
          Program.run_bind_error ran]
        exact ⟨rfl, rfl⟩
      | ok ret =>
        rw [Action.bind_ok (started.trans (Action.bind_ok called)), Program.run_bind_ok ran]
        exact ⟨rfl, rfl⟩
  · have started : softagc_init (F := F) parts s = (.ok (), s) := congrFun (if_neg on) s
    change _ = ((if s.dongle.dev.agcState ≠ .off then _ else _ : Prog P Int32).run Dongle.serve
      s.dongle).2 ∧ _ = ((if s.dongle.dev.agcState ≠ .off then _ else _ : Prog P Int32).run
        Dongle.serve s.dongle).1
    rw [if_neg on, Action.bind_ok started]
    exact ⟨rfl, rfl⟩

theorem set_opt_string_simulates (opts : Bytes) :
    Simulates (set_opt_string parts floats opts) (Tuner.set_opt_string parts opts true) := by
  intro s
  exact (Simulates.bind (applyOptions_simulates parts floats (optParts opts) 0)
    (softagc_init_simulates parts)) (s.begun floats)

inductive Effect (P F : Type) where
  | call (program : Prog P Int32)
  | field (inRange : Bool) (f : Parsing P F → Parsing P F)
  | unknown

def Effect.act : Effect P F → Act P F Int32
  | .call program => setter program
  | .field inRange f => fun s => if inRange then (.ok 0, f s) else (.ok (-1), s)
  | .unknown => fun s => (.ok (-1), s)

/-- `rtlsdr_set_ds_mode` with the new mode or the new threshold. -/
def callDm (dm : UInt32) : Prog P Int32 := do
  let dev ← getDev
  Tuner.set_ds_mode parts (Dev.setDm dm dev).direct_sampling_mode
    (Dev.setDm dm dev).direct_sampling_threshold

def within (val high : Int32) : Bool := 0 ≤ val ∧ val ≤ high

def Opt.meaning : Opt → Effect P F
  | .verbose => .field true fun s => s.setVerbose (s.settings.verbose + 1)
  | .f text => .call (Tuner.set_center_freq64 parts (parts.parse_uint64 text))
  | .bw text => .call (Tuner.set_tuner_bandwidth parts (UInt32.ofInt (atol text * 1000)))
  | .bc text => .call (Tuner.set_tuner_band_center parts (parts.parse_int32 text))
  | .sb text => .call (Tuner.set_tuner_sideband parts (sidebandOf text))
  | .agc text => .call (Tuner.set_tuner_gain_mode parts (1 - atoi text))
  | .gain text => .call (Tuner.set_tuner_gain parts (atoi text))
  | .agcv text => .call (Tuner.set_tuner_if_mode parts (if atoi text < 0 then 0 else atoi text))
  | .ifm text => .call (Tuner.set_tuner_if_mode parts (atoi text))
  | .dagc text => .call (Tuner.set_agc_mode (atoi text))
  | .ds text =>
    .call (Tuner.set_direct_sampling parts (Tuner.set_center_freq64 parts) (atoi text))
  | .dm text => .call (callDm parts (parts.parse_uint32 text))
  | .harm text => .field (within (atoi text) 16) fun s =>
    s.setConfig fun c => { c with harmonic := atoi text }
  | .vcocmin text => .field (within (atoi text) 7) fun s =>
    s.setConfig fun c => { c with vco_curr_min := (7 - atoi text).toUInt32.toUInt8 }
  | .vcocmax text => .field (within (atoi text) 7) fun s =>
    s.setConfig fun c => { c with vco_curr_max := (7 - atoi text).toUInt32.toUInt8 }
  | .vcoalgo text => .field (within (atoi text) 2) fun s =>
    s.set fun c => { c with vco_algo := (atoi text).toUInt32.toUInt8 }
  | .tp text => .field true fun s =>
    s.setDev fun dev => { dev with biast_gpio_pin_no := (atoi text).toUInt32.toUInt8 }
  | .t text => .call (Tuner.set_bias_tee (atoi text))
  | .softagc text => .field true fun s => s.setDev (Dev.softagc (atoi text))
  | .softscantime text => .field true fun s =>
    s.set fun c => { c with scanTimeMs := floats.atof text }
  | .softdeadtime text => .field true fun s =>
    s.set fun c => { c with deadTimeMs := floats.atof text }
  | .softverbose => .field true fun s => s.set fun c => { c with softagc_verbose := true }
  | .unknown => .unknown

/-- The effects of the options in order, and whether one of them was rejected or failed. -/
def followOptions : List Bytes → Bool → Act P F Bool
  | [], rejected => pure rejected
  | optPart :: rest, rejected => do
    let ret ← ((optionOf optPart).meaning parts floats).act
    followOptions rest (rejected || ret < 0)

def follow_opt_string (opts : Bytes) : Act P F Bool := do
  Action.modify (Parsing.begun floats)
  let rejected ← followOptions parts floats (optParts opts) false
  softagc_init parts
  return rejected

def Negative : Except Stuck Int32 → Prop
  | .ok ret => ret < 0
  | .error _ => False

/-- The option does what it says, and is an error if that is rejected or fails. -/
def Exact (opt : Opt) (s : Parsing P F) : Prop :=
  (opt.apply parts floats s).2 = ((opt.meaning parts floats).act s).2 ∧
    (Negative ((opt.meaning parts floats).act s).1 → Negative (opt.apply parts floats s).1)

/-- A value with a range is in it. `vcoalgo` says nothing new, and neither does `dm` without a
frequency. -/
def Proper (opt : Opt) (s : Parsing P F) : Prop :=
  match opt with
  | .harm text => within (atoi text) 16 = true
  | .vcocmin text | .vcocmax text => within (atoi text) 7 = true
  | .vcoalgo text => within (atoi text) 2 = true ∧
      s.dongle.chips.r82xx_c.vco_curr_max = (atoi text).toUInt32.toUInt8 ∧
      s.settings.vco_algo = (atoi text).toUInt32.toUInt8
  | .dm text => s.dongle.dev.freq ≠ 0 ∨
      Dev.setDm (parts.parse_uint32 text) s.dongle.dev = s.dongle.dev
  | _ => True

theorem Dev.setDm_freq (dm : UInt32) (dev : Tuner.Dev) : (Dev.setDm dm dev).freq = dev.freq := by
  rw [Dev.setDm]
  split
  · rfl
  · rfl

variable {d : Dongle P}

theorem set_ds_mode_refused (mode freq_threshold : UInt32) (none : d.dev.freq = 0) :
    (Tuner.set_ds_mode parts mode freq_threshold).run Dongle.serve d = (.ok (-2), d) := by
  change (if d.dev.freq = 0 then pure (-2) else _ : Prog P Int32).run Dongle.serve d = _
  rw [if_pos none]
  rfl

theorem set_ds_mode_setDm (dm mode freq_threshold : UInt32) (some : d.dev.freq ≠ 0) :
    (Tuner.set_ds_mode parts mode freq_threshold).run Dongle.serve
        { d with dev := Dev.setDm dm d.dev } =
      (Tuner.set_ds_mode parts mode freq_threshold).run Dongle.serve d := by
  rw [Dev.setDm]
  split
  · change (if d.dev.freq = 0 then pure (-2) else _ : Prog P Int32).run Dongle.serve _ =
      (if d.dev.freq = 0 then pure (-2) else _ : Prog P Int32).run Dongle.serve _
    rw [if_neg some]
    rfl
  · change (if d.dev.freq = 0 then pure (-2) else _ : Prog P Int32).run Dongle.serve _ =
      (if d.dev.freq = 0 then pure (-2) else _ : Prog P Int32).run Dongle.serve _
    rw [if_neg some]
    rfl

theorem applyDm_run (dm : UInt32) (d : Dongle P) :
    (applyDm parts dm).run Dongle.serve d =
      (Tuner.set_ds_mode parts (Dev.setDm dm d.dev).direct_sampling_mode
        (Dev.setDm dm d.dev).direct_sampling_threshold).run Dongle.serve
          { d with dev := Dev.setDm dm d.dev } := rfl

theorem callDm_run (dm : UInt32) (d : Dongle P) :
    (callDm parts dm).run Dongle.serve d =
      (Tuner.set_ds_mode parts (Dev.setDm dm d.dev).direct_sampling_mode
        (Dev.setDm dm d.dev).direct_sampling_threshold).run Dongle.serve d := rfl

theorem dm_eq {dm : UInt32} (proper : d.dev.freq ≠ 0 ∨ Dev.setDm dm d.dev = d.dev) :
    (applyDm parts dm).run Dongle.serve d = (callDm parts dm).run Dongle.serve d := by
  rw [applyDm_run, callDm_run]
  cases proper with
  | inl some => exact set_ds_mode_setDm parts dm _ _ some
  | inr same => rw [same]

variable {val high : Int32} {s : Parsing P F}

theorem assignWithin_eq
    (inside : within val high = true) : assignWithin val high f s = (.ok 0, f s) := by
  have inside : 0 ≤ val ∧ val ≤ high := of_decide_eq_true inside
  rw [assignWithin, if_pos inside]

theorem field_eq {inRange : Bool}
    (inside : inRange = true) : (Effect.field inRange f).act s = (.ok 0, f s) := if_pos inside

theorem apply_eq (proper : Proper parts opt s) :
    opt.apply parts floats s = (opt.meaning parts floats).act s := by
  cases opt with
  | harm text =>
    rw [Opt.apply, Opt.meaning, assignWithin_eq proper, field_eq proper]
  | vcocmin text | vcocmax text =>
    rw [Opt.apply, Opt.meaning, assignWithin_eq proper, field_eq proper]
  | vcoalgo text =>
    obtain ⟨inside, current, algo⟩ := proper
    have config : s.setConfig (fun c => { c with vco_curr_max := (atoi text).toUInt32.toUInt8 }) = s := by
      rw [← current]
      rfl
    have field : s.set (fun c => { c with vco_algo := (atoi text).toUInt32.toUInt8 }) = s := by
      rw [← algo]
      rfl
    rw [Opt.apply, Opt.meaning, assignWithin_eq inside, field_eq inside, config, field]
  | dm text =>
    have same := dm_eq parts proper
    rw [Opt.apply, Opt.meaning, Effect.act, setter, setter, same]
  | _ => rfl

theorem assignWithin_out
    (outside : ¬ within val high = true) : ¬ Negative (assignWithin val high f s).1 := by
  have outside : ¬ (0 ≤ val ∧ val ≤ high) := fun inside => outside (decide_eq_true inside)
  rw [assignWithin, if_neg outside]
  split
  · exact nofun
  · exact nofun

theorem field_out {inRange : Bool}
    (outside : ¬ inRange = true) : Negative ((Effect.field inRange f).act s).1 := by
  have rejected : (Effect.field inRange f).act s = (.ok (-1), s) := if_neg outside
  rw [rejected]
  exact (by decide : (-1 : Int32) < 0)

theorem not_exact_out {g : Parsing P F → Parsing P F}
    (exact : Negative ((Effect.field (within val high) g).act s).1 →
      Negative (assignWithin val high f s).1) : within val high = true := by
  by_contra outside
  exact assignWithin_out outside (exact (field_out outside))

theorem proper_of_exact (exact : Exact parts floats opt s) :
    Proper parts opt s := by
  cases opt with
  | harm text => exact not_exact_out exact.2
  | vcocmin text | vcocmax text => exact not_exact_out exact.2
  | vcoalgo text =>
    have inside := not_exact_out exact.2
    have state := exact.1
    rw [Opt.apply, Opt.meaning, assignWithin_eq inside, field_eq inside] at state
    refine ⟨inside, ?_, ?_⟩
    · exact (congrArg (fun s => s.dongle.chips.r82xx_c.vco_curr_max) state).symm
    · exact congrArg (fun s => s.settings.vco_algo) state
  | dm text =>
    by_cases none : s.dongle.dev.freq = 0
    · have state := exact.1
      simp only [Opt.apply, Opt.meaning, Effect.act, setter, applyDm_run, callDm_run] at state
      have kept : (Dev.setDm (parts.parse_uint32 text) s.dongle.dev).freq = 0 :=
        (Dev.setDm_freq _ _).trans none
      have refused := set_ds_mode_refused parts
        (Dev.setDm (parts.parse_uint32 text) s.dongle.dev).direct_sampling_mode
        (Dev.setDm (parts.parse_uint32 text) s.dongle.dev).direct_sampling_threshold
        (d := { s.dongle with dev := Dev.setDm (parts.parse_uint32 text) s.dongle.dev }) kept
      rw [set_ds_mode_refused parts _ _ none, refused] at state
      exact .inr (congrArg (fun s => s.dongle.dev) state)
    · exact .inl none
  | _ => trivial

theorem exact_iff_proper (opt : Opt) (s : Parsing P F) :
    Exact parts floats opt s ↔ Proper parts opt s := by
  constructor
  · exact proper_of_exact parts floats
  · intro proper
    have same := apply_eq parts floats proper
    exact ⟨congrArg Prod.snd same, fun negative => same ▸ negative⟩

def Each (good : Opt → Parsing P F → Prop) : List Bytes → Parsing P F → Prop
  | [], _ => True
  | optPart :: rest, s => good (optionOf optPart) s ∧
      Each good rest ((optionOf optPart).apply parts floats s).2

/-- Every option has the effect that it names, the effects follow each other in order, and the call
is an error if an option is rejected or fails. -/
structure Obeys (opts : Bytes) (s : Parsing P F) : Prop where
  each : Each parts floats (Exact parts floats) (optParts opts) (s.begun floats)
  state : (set_opt_string parts floats opts s).2 = (follow_opt_string parts floats opts s).2
  rejected : (follow_opt_string parts floats opts s).1 = .ok true →
    Negative (set_opt_string parts floats opts s).1

theorem each_iff {good good' : Opt → Parsing P F → Prop} (iff : ∀ opt s, good opt s ↔ good' opt s)
    (optParts : List Bytes) (s : Parsing P F) :
    Each parts floats good optParts s ↔ Each parts floats good' optParts s := by
  induction optParts generalizing s with
  | nil => exact Iff.rfl
  | cons optPart rest ih => exact and_congr (iff _ _) (ih _)

def Returns : Except Stuck Int32 → Except Stuck Bool → Prop
  | .ok retAll, .ok rejected => retAll < 0 ↔ rejected = true
  | .error _, .error _ => True
  | _, _ => False

theorem options_follow (optParts : List Bytes) {retAll : Int32} {rejected : Bool}
    (before : retAll < 0 ↔ rejected = true) (proper : Each parts floats (Proper parts) optParts s) :
    (applyOptions parts floats optParts retAll s).2 =
        (followOptions parts floats optParts rejected s).2 ∧
      Returns (applyOptions parts floats optParts retAll s).1
        (followOptions parts floats optParts rejected s).1 := by
  induction optParts generalizing s retAll rejected with
  | nil => exact ⟨rfl, before⟩
  | cons optPart rest ih =>
    obtain ⟨here, later⟩ := proper
    have same := apply_eq parts floats here
    cases applied : (optionOf optPart).apply parts floats s with
    | mk answer s' =>
      have followed := same.symm.trans applied
      rw [applied] at later
      cases answer with
      | error e =>
        rw [applyOptions, followOptions, Action.bind_error applied, Action.bind_error followed]
        exact ⟨rfl, trivial⟩
      | ok ret =>
        rw [applyOptions, followOptions, Action.bind_ok applied, Action.bind_ok followed]
        apply ih _ later
        by_cases negative : ret < 0
        · simp [negative]
        · simpa [negative] using before

theorem softagc_init_returns {retAll : Int32} {rejected : Bool}
    (returned : retAll < 0 ↔ rejected = true) :
    ((do softagc_init parts; return retAll : Act P F Int32) s).2 =
        ((do softagc_init parts; return rejected : Act P F Bool) s).2 ∧
      Returns ((do softagc_init parts; return retAll : Act P F Int32) s).1
        ((do softagc_init parts; return rejected : Act P F Bool) s).1 := by
  cases started : softagc_init parts s with
  | mk answer s' =>
    cases answer with
    | error e =>
      rw [Action.bind_error started, Action.bind_error started]
      exact ⟨rfl, trivial⟩
    | ok _ =>
      rw [Action.bind_ok started, Action.bind_ok started]
      exact ⟨rfl, returned⟩

theorem set_opt_string_follows {opts : Bytes}
    (proper : Each parts floats (Proper parts) (optParts opts) (s.begun floats)) :
    (set_opt_string parts floats opts s).2 = (follow_opt_string parts floats opts s).2 ∧
      Returns (set_opt_string parts floats opts s).1 (follow_opt_string parts floats opts s).1 := by
  have begun : Action.modify (ε := Stuck) (Parsing.begun floats) s = (.ok (), s.begun floats) := rfl
  rw [set_opt_string, follow_opt_string, Action.bind_ok begun, Action.bind_ok begun]
  have zero : (0 : Int32) < 0 ↔ false = true := by decide
  obtain ⟨state, returns⟩ := options_follow parts floats (optParts opts) zero proper
  cases applied : applyOptions parts floats (optParts opts) 0 (s.begun floats) with
  | mk answer s' =>
    cases followed : followOptions parts floats (optParts opts) false (s.begun floats) with
    | mk answer' s'' =>
      rw [applied, followed] at state returns
      cases state
      cases answer with
      | error e =>
        cases answer' with
        | error e' =>
          rw [Action.bind_error applied, Action.bind_error followed]
          exact ⟨rfl, trivial⟩
        | ok rejected => exact returns.elim
      | ok retAll =>
        cases answer' with
        | error e' => exact returns.elim
        | ok rejected =>
          rw [Action.bind_ok applied, Action.bind_ok followed]
          exact softagc_init_returns parts returns

/-- The options do what they say, and the call tells what was rejected, if each option is proper, and
only then. -/
theorem obeys_iff_proper (opts : Bytes) (s : Parsing P F) :
    Obeys parts floats opts s ↔
      Each parts floats (Proper parts) (optParts opts) (s.begun floats) := by
  have exact_iff := each_iff parts floats (exact_iff_proper parts floats) (optParts opts)
    (s.begun floats)
  constructor
  · intro obeys
    exact exact_iff.mp obeys.each
  · intro proper
    obtain ⟨state, returns⟩ := set_opt_string_follows parts floats proper
    refine ⟨exact_iff.mpr proper, state, ?_⟩
    intro rejected
    rw [rejected] at returns
    cases answer : (set_opt_string parts floats opts s).1 with
    | error e =>
      rw [answer] at returns
      exact returns.elim
    | ok ret =>
      rw [answer] at returns
      exact returns.mpr rfl

end Calls

def untuned : Parsing Unit Unit where
  dongle := .idle { Tuner.fc0012Dev with tuner_type := .r820t } Tuner.fc0012Chips fun _ => ⟨0, []⟩
  settings := {
    called_set_opt := false
    verbose := 0
    r82xx_c_verbose := 0
    vco_algo := 0
    softagc_verbose := false
    scanTimeMs := ()
    deadTimeMs := () }
  verbose := 0

/-- There is no harmonic 17, but the call returns 0. -/
theorem not_obeys : ¬ ∀ (P F : Type) (parts : Parts P) (floats : Floats F) (opts : Bytes)
    (s : Parsing P F), Obeys parts floats opts s := by
  intro obeys
  have each := (obeys Unit Unit default ⟨fun _ => (), ()⟩ (ascii "harm=17") untuned).each
  have one : optParts (ascii "harm=17") = [ascii "harm=17"] := by decide
  have harm : optionOf (ascii "harm=17") = .harm (ascii "17") := by rfl
  rw [one, Each, harm] at each
  have inside : within (atoi (ascii "17")) 16 = true := proper_of_exact _ _ each.1
  exact absurd inside (by decide)

end Soapy.Rtl.OptionString
