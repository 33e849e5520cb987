import Mathlib

/-! # The index of a device

A device is named by its index among the known ones. Each function lists the USB devices again and
counts the known ones until the index is reached; a device is given here by its place in the list.
-/

namespace Soapy.Rtl.DeviceIndex

/-- What the descriptor of a USB device says about its kind. -/
structure Descriptor where
  idVendor : UInt16
  idProduct : UInt16

/-- `rtlsdr_dongle_t`. -/
structure Dongle where
  vid : UInt16
  pid : UInt16
  name : String

def known_devices : List Dongle :=
  [⟨0x0bda, 0x2832, "Generic RTL2832U"⟩,
    ⟨0x0bda, 0x2838, "Generic RTL2832U OEM"⟩,
    ⟨0x0413, 0x6680, "DigitalNow Quad DVB-T PCI-E card"⟩,
    ⟨0x0413, 0x6f0f, "Leadtek WinFast DTV Dongle mini D"⟩,
    ⟨0x0458, 0x707f, "Genius TVGo DVB-T03 USB dongle (Ver. B)"⟩,
    ⟨0x0ccd, 0x00a9, "Terratec Cinergy T Stick Black (rev 1)"⟩,
    ⟨0x0ccd, 0x00b3, "Terratec NOXON DAB/DAB+ USB dongle (rev 1)"⟩,
    ⟨0x0ccd, 0x00b4, "Terratec Deutschlandradio DAB Stick"⟩,
    ⟨0x0ccd, 0x00b5, "Terratec NOXON DAB Stick - Radio Energy"⟩,
    ⟨0x0ccd, 0x00b7, "Terratec Media Broadcast DAB Stick"⟩,
    ⟨0x0ccd, 0x00b8, "Terratec BR DAB Stick"⟩,
    ⟨0x0ccd, 0x00b9, "Terratec WDR DAB Stick"⟩,
    ⟨0x0ccd, 0x00c0, "Terratec MuellerVerlag DAB Stick"⟩,
    ⟨0x0ccd, 0x00c6, "Terratec Fraunhofer DAB Stick"⟩,
    ⟨0x0ccd, 0x00d3, "Terratec Cinergy T Stick RC (Rev.3)"⟩,
    ⟨0x0ccd, 0x00d7, "Terratec T Stick PLUS"⟩,
    ⟨0x0ccd, 0x00e0, "Terratec NOXON DAB/DAB+ USB dongle (rev 2)"⟩,
    ⟨0x1209, 0x2832, "Generic RTL2832U"⟩,
    ⟨0x1554, 0x5020, "PixelView PV-DT235U(RN)"⟩,
    ⟨0x15f4, 0x0131, "Astrometa DVB-T/DVB-T2"⟩,
    ⟨0x15f4, 0x0133, "HanfTek DAB+FM+DVB-T"⟩,
    ⟨0x185b, 0x0620, "Compro Videomate U620F"⟩,
    ⟨0x185b, 0x0650, "Compro Videomate U650F"⟩,
    ⟨0x185b, 0x0680, "Compro Videomate U680F"⟩,
    ⟨0x1b80, 0xd393, "GIGABYTE GT-U7300"⟩,
    ⟨0x1b80, 0xd394, "DIKOM USB-DVBT HD"⟩,
    ⟨0x1b80, 0xd395, "Peak 102569AGPK"⟩,
    ⟨0x1b80, 0xd397, "KWorld KW-UB450-T USB DVB-T Pico TV"⟩,
    ⟨0x1b80, 0xd398, "Zaapa ZT-MINDVBZP"⟩,
    ⟨0x1b80, 0xd39d, "SVEON STV20 DVB-T USB & FM"⟩,
    ⟨0x1b80, 0xd3a4, "Twintech UT-40"⟩,
    ⟨0x1b80, 0xd3a8, "ASUS U3100MINI_PLUS_V2"⟩,
    ⟨0x1b80, 0xd3af, "SVEON STV27 DVB-T USB & FM"⟩,
    ⟨0x1b80, 0xd3b0, "SVEON STV21 DVB-T USB & FM"⟩,
    ⟨0x1d19, 0x1101, "Dexatek DK DVB-T Dongle (Logilink VG0002A)"⟩,
    ⟨0x1d19, 0x1102, "Dexatek DK DVB-T Dongle (MSI DigiVox mini II V3.0)"⟩,
    ⟨0x1d19, 0x1103, "Dexatek Technology Ltd. DK 5217 DVB-T Dongle"⟩,
    ⟨0x1d19, 0x1104, "MSI DigiVox Micro HD"⟩,
    ⟨0x1f4d, 0xa803, "Sweex DVB-T USB"⟩,
    ⟨0x1f4d, 0xb803, "GTek T803"⟩,
    ⟨0x1f4d, 0xc803, "Lifeview LV5TDeluxe"⟩,
    ⟨0x1f4d, 0xd286, "MyGica TD312"⟩,
    ⟨0x1f4d, 0xd803, "PROlectrix DV107669"⟩]

def find_known_device (vid pid : UInt16) : Option Dongle :=
  known_devices.find? fun device => device.vid = vid && device.pid = pid

def Descriptor.device (dd : Descriptor) : Option Dongle :=
  find_known_device dd.idVendor dd.idProduct

def Descriptor.known (dd : Descriptor) : Bool := dd.device.isSome

structure Strings where
  manufact : String
  product : String
  serial : String

/-- What the USB library does, and what `rtlsdr_open` returns once it has opened a device. -/
structure Usb where
  libusb_init : Int
  libusb_get_device_list : List Descriptor
  few : libusb_get_device_list.length < 2 ^ 31
  libusb_open : Nat → Int
  libusb_get_device_descriptor : Nat → Int
  strings : Nat → Strings
  bringUp : Nat → Int

def count_loop : List Descriptor → UInt32 → UInt32
  | [], device_count => device_count
  | dd :: list, device_count =>
    count_loop list (if dd.known then device_count + 1 else device_count)

def rtlsdr_get_device_count (usb : Usb) : UInt32 :=
  if usb.libusb_init < 0 then 0 else count_loop usb.libusb_get_device_list 0

/-- The loop of `rtlsdr_get_device_name`, with the last value of `device`. -/
def name_loop (index : UInt32) : List Descriptor → UInt32 → Option Dongle → Option Dongle
  | [], _, device => device
  | dd :: list, device_count, _ =>
    match dd.device with
    | some device =>
      if index = device_count + 1 - 1 then some device
      else name_loop index list (device_count + 1) (some device)
    | none => name_loop index list device_count none

def rtlsdr_get_device_name (usb : Usb) (index : UInt32) : String :=
  if usb.libusb_init < 0 then ""
  else
    match name_loop index usb.libusb_get_device_list 0 none with
    | some device => device.name
    | none => ""

/-- What a function returns, which strings it has read, and the devices that it has opened. -/
structure Access where
  r : Int
  strings : Option Strings
  touched : List Nat

/-- An argument that is `NULL` gets none of the strings. -/
def rtlsdr_get_usb_strings (usb : Usb) (place : Nat) : Int × Option Strings :=
  if usb.libusb_get_device_descriptor place < 0 then (-1, none) else (0, some (usb.strings place))

/-- The loop of `rtlsdr_get_device_usb_strings` up to the device that is opened. -/
def strings_loop (index : UInt32) : List Descriptor → UInt32 → Nat → Option Nat
  | [], _, _ => none
  | dd :: list, device_count, i =>
    if dd.known then
      if index = device_count + 1 - 1 then some i
      else strings_loop index list (device_count + 1) (i + 1)
    else strings_loop index list device_count (i + 1)

def read_strings (usb : Usb) (place : Nat) : Access :=
  if usb.libusb_open place = 0 then
    let (r, strings) := rtlsdr_get_usb_strings usb place
    ⟨r, strings, [place]⟩
  else ⟨usb.libusb_open place, none, [place]⟩

/-- The first value of `r` is lost in the call of `libusb_init`. -/
def rtlsdr_get_device_usb_strings (usb : Usb) (index : UInt32) : Access :=
  if usb.libusb_init < 0 then ⟨usb.libusb_init, none, []⟩
  else
    match strings_loop index usb.libusb_get_device_list 0 0 with
    | some place => read_strings usb place
    | none => ⟨usb.libusb_init, none, []⟩

def rtlsdr_get_index_by_serial (usb : Usb) : Option String → Int
  | none => -1
  | some serial =>
    let cnt := rtlsdr_get_device_count usb
    if cnt = 0 then -2
    else
      let same (i : Nat) : Bool :=
        let found := rtlsdr_get_device_usb_strings usb (UInt32.ofNat i)
        found.r = 0 && found.strings.map Strings.serial = some serial
      match (List.range cnt.toNat).find? same with
      | some i => i
      | none => -3

/-- The loop of `rtlsdr_open`. The index is looked at behind an unknown device as well. -/
def open_loop (index : UInt32) : List Descriptor → UInt32 → Nat → Option Nat
  | [], _, _ => none
  | dd :: list, device_count, i =>
    let device_count := if dd.known then device_count + 1 else device_count
    if index = device_count - 1 then some i else open_loop index list device_count (i + 1)

def open_place (usb : Usb) (place : Nat) : Access :=
  if usb.libusb_open place < 0 then ⟨usb.libusb_open place, none, [place]⟩
  else ⟨usb.bringUp place, none, [place]⟩

def rtlsdr_open (usb : Usb) (index : UInt32) : Access :=
  if usb.libusb_init < 0 then ⟨-1, none, []⟩
  else
    match open_loop index usb.libusb_get_device_list 0 0 with
    | some place => open_place usb place
    | none => ⟨-1, none, []⟩

/-- The devices that a function comes to see. -/
def listed (usb : Usb) : List Descriptor :=
  if usb.libusb_init < 0 then [] else usb.libusb_get_device_list

def knownPlaces (usb : Usb) : List Nat := (listed usb).findIdxs Descriptor.known

structure RefersTo (usb : Usb) (index : UInt32) (place : Nat) : Prop where
  name : ∃ dd device, (listed usb)[place]? = some dd ∧ dd.device = some device ∧
    rtlsdr_get_device_name usb index = device.name
  strings : rtlsdr_get_device_usb_strings usb index = read_strings usb place
  opened : rtlsdr_open usb index = open_place usb place

structure Refused (usb : Usb) (index : UInt32) : Prop where
  name : rtlsdr_get_device_name usb index = ""
  strings : (rtlsdr_get_device_usb_strings usb index).r < 0 ∧
    (rtlsdr_get_device_usb_strings usb index).touched = []
  opened : (rtlsdr_open usb index).r < 0 ∧ (rtlsdr_open usb index).touched = []

def IndexCoherent (usb : Usb) (index : UInt32) : Prop :=
  if index < rtlsdr_get_device_count usb then
    ∃ place, (knownPlaces usb)[index.toNat]? = some place ∧ RefersTo usb index place
  else Refused usb index

def SerialAt (usb : Usb) (serial : String) (place : Nat) : Prop :=
  (read_strings usb place).r = 0 ∧
    (read_strings usb place).strings.map Strings.serial = some serial

def SerialFound (usb : Usb) (serial : String) : Prop :=
  (∃ (i : Nat) (place : Nat), (knownPlaces usb)[i]? = some place ∧ SerialAt usb serial place ∧
      rtlsdr_get_index_by_serial usb (some serial) = i ∧
      ∀ j < i, ∀ before, (knownPlaces usb)[j]? = some before → ¬ SerialAt usb serial before) ∨
    rtlsdr_get_index_by_serial usb (some serial) < 0 ∧
      ∀ place ∈ knownPlaces usb, ¬ SerialAt usb serial place

theorem count_succ (c : Nat) : UInt32.ofNat c + 1 = UInt32.ofNat (c + 1) :=
  (UInt32.ofNat_add c 1).symm

theorem count_pred (c : Nat) : UInt32.ofNat (c + 1) - 1 = UInt32.ofNat c := by
  rw [← count_succ, UInt32.add_sub_cancel]

theorem index_eq {index : UInt32} {c : Nat} (small : c < 2 ^ 32) :
    index = UInt32.ofNat c + 1 - 1 ↔ index.toNat = c := by
  rw [count_succ, count_pred, ← UInt32.toNat_inj, UInt32.toNat_ofNat_of_lt' small]

variable {c i : Nat} {index : UInt32}

variable (list : List Descriptor)

theorem count_loop_eq :
    count_loop list (UInt32.ofNat c) = UInt32.ofNat (c + list.countP Descriptor.known) := by
  induction list generalizing c with
  | nil => rfl
  | cons dd list ih =>
    rw [count_loop, List.countP_cons]
    cases dd.known with
    | false => exact ih
    | true =>
      rw [if_pos rfl, if_pos rfl, count_succ, ih, Nat.add_assoc, Nat.add_comm 1]

theorem getElem?_behind {α : Type} {a : α} {rest : List α} (later : c ≤ i) (further : i ≠ c) :
    (a :: rest)[i - c]? = rest[i - (c + 1)]? := by
  have more : i - c = i - (c + 1) + 1 := by omega
  rw [more, List.getElem?_cons_succ]

theorem strings_loop_eq (small : c + list.length < 2 ^ 32) (later : c ≤ index.toNat) :
    strings_loop index list (UInt32.ofNat c) i =
      (list.findIdxs Descriptor.known i)[index.toNat - c]? := by
  induction list generalizing c i with
  | nil => rfl
  | cons dd list ih =>
    rw [List.length_cons] at small
    rw [strings_loop, List.findIdxs_cons]
    simp only [index_eq (c.lt_of_le_of_lt (Nat.le_add_right c _) small)]
    cases dd.known with
    | false => exact ih (by omega) later
    | true =>
      rw [if_pos rfl, if_pos rfl]
      split
      · rename_i here
        rw [here, Nat.sub_self]
        rfl
      · rename_i further
        rw [getElem?_behind later further, count_succ]
        exact ih (by omega) (by omega)

theorem open_loop_eq (small : c + list.length < 2 ^ 32)
    (later : c ≤ index.toNat) (counted : 0 < c ∨ index ≠ 0xFFFFFFFF) :
    open_loop index list (UInt32.ofNat c) i =
      (list.findIdxs Descriptor.known i)[index.toNat - c]? := by
  induction list generalizing c i with
  | nil => rfl
  | cons dd list ih =>
    rw [List.length_cons] at small
    rw [open_loop, List.findIdxs_cons]
    cases dd.known with
    | false =>
      have other : index ≠ UInt32.ofNat c - 1 := by
        cases c with
        | zero => exact counted.resolve_left (Nat.lt_irrefl 0)
        | succ c =>
          rw [← count_succ, ne_eq, index_eq (by omega)]
          omega
      simp only [Bool.false_eq_true, if_false, if_neg other]
      exact ih (by omega) later counted
    | true =>
      simp only [if_true, index_eq (c.lt_of_le_of_lt (Nat.le_add_right c _) small)]
      split
      · rename_i here
        rw [here, Nat.sub_self]
        rfl
      · rename_i further
        rw [getElem?_behind later further, count_succ]
        exact ih (by omega) (by omega) (.inl (Nat.succ_pos c))

theorem name_loop_found (last : Option Dongle) {place : Nat}
    (small : c + list.length < 2 ^ 32) (later : c ≤ index.toNat)
    (found : (list.findIdxs Descriptor.known i)[index.toNat - c]? = some place) :
    ∃ dd device, i ≤ place ∧ list[place - i]? = some dd ∧ dd.device = some device ∧
      name_loop index list (UInt32.ofNat c) last = some device := by
  induction list generalizing c i last with
  | nil => cases found
  | cons dd list ih =>
    rw [List.length_cons] at small
    rw [List.findIdxs_cons] at found
    rw [name_loop]
    cases known : dd.device with
    | none =>
      have unknown : dd.known = false := congrArg Option.isSome known
      rw [unknown] at found
      obtain ⟨dd', device, further, here, is, name⟩ := ih none (by omega) later found
      refine ⟨dd', device, by omega, ?_, is, name⟩
      rw [getElem?_behind (by omega) (by omega)]
      exact here
    | some device =>
      have known' : dd.known = true := congrArg Option.isSome known
      rw [known', if_pos rfl] at found
      simp only [index_eq (c.lt_of_le_of_lt (Nat.le_add_right c _) small)]
      split
      · rename_i here
        rw [here, Nat.sub_self] at found
        cases found
        exact ⟨dd, device, Nat.le_refl _, by rw [Nat.sub_self]; rfl, known, rfl⟩
      · rename_i further
        rw [getElem?_behind later further] at found
        obtain ⟨dd', device', further, here, is, name⟩ :=
          ih (some device) (by omega) (by omega) found
        rw [count_succ]
        refine ⟨dd', device', by omega, ?_, is, name⟩
        rw [getElem?_behind (by omega) (by omega)]
        exact here

variable {usb : Usb}

theorem listed_of_init (init : ¬ usb.libusb_init < 0) :
    listed usb = usb.libusb_get_device_list := if_neg init

theorem listed_few (usb : Usb) : (listed usb).length < 2 ^ 31 := by
  rw [listed]
  split
  · decide
  · exact usb.few

theorem known_few (usb : Usb) : (knownPlaces usb).length < 2 ^ 31 := by
  rw [knownPlaces, List.length_findIdxs]
  exact Nat.lt_of_le_of_lt List.countP_le_length (listed_few usb)

theorem device_count_eq (usb : Usb) :
    (rtlsdr_get_device_count usb).toNat = (knownPlaces usb).length := by
  have few := known_few usb
  rw [knownPlaces, List.length_findIdxs] at few ⊢
  rw [rtlsdr_get_device_count]
  by_cases init : usb.libusb_init < 0
  · rw [if_pos init, listed, if_pos init]
    rfl
  · rw [if_neg init, ← listed_of_init init]
    have counted := count_loop_eq (c := 0) (listed usb)
    rw [Nat.zero_add] at counted
    change (count_loop (listed usb) (UInt32.ofNat 0)).toNat = _
    rw [counted]
    exact UInt32.toNat_ofNat_of_lt' (Nat.lt_trans few (by decide))

theorem usb_strings_eq (usb : Usb) (index : UInt32) : rtlsdr_get_device_usb_strings usb index =
    match (knownPlaces usb)[index.toNat]? with
    | some place => read_strings usb place
    | none => ⟨usb.libusb_init, none, []⟩ := by
  have few := usb.few
  rw [rtlsdr_get_device_usb_strings, knownPlaces]
  by_cases init : usb.libusb_init < 0
  · rw [if_pos init, listed, if_pos init]
    rfl
  · have found := strings_loop_eq (c := 0) (i := 0) usb.libusb_get_device_list
      (by omega) index.toNat.zero_le
    rw [if_neg init, listed_of_init init]
    rw [Nat.sub_zero] at found
    rw [← found]
    rfl

theorem open_eq (usb : Usb) {index : UInt32} (counted : index ≠ 0xFFFFFFFF) :
    rtlsdr_open usb index =
      match (knownPlaces usb)[index.toNat]? with
      | some place => open_place usb place
      | none => ⟨-1, none, []⟩ := by
  have few := usb.few
  rw [rtlsdr_open, knownPlaces]
  by_cases init : usb.libusb_init < 0
  · rw [if_pos init, listed, if_pos init]
    rfl
  · have found := open_loop_eq (c := 0) (i := 0) usb.libusb_get_device_list
      (by omega) index.toNat.zero_le (.inr counted)
    rw [if_neg init, listed_of_init init]
    rw [Nat.sub_zero] at found
    rw [← found]
    rfl

theorem device_name_found {place : Nat} (found : (knownPlaces usb)[index.toNat]? = some place) :
    ∃ dd device, (listed usb)[place]? = some dd ∧ dd.device = some device ∧
      rtlsdr_get_device_name usb index = device.name := by
  have few := usb.few
  rw [knownPlaces] at found
  rw [rtlsdr_get_device_name]
  by_cases init : usb.libusb_init < 0
  · rw [listed, if_pos init] at found
    cases found
  · rw [listed_of_init init] at found ⊢
    obtain ⟨dd, device, _, here, known, name⟩ := name_loop_found (c := 0) _ none
      (by omega) index.toNat.zero_le found
    refine ⟨dd, device, here, known, ?_⟩
    change name_loop index usb.libusb_get_device_list 0 none = some device at name
    rw [if_neg init, name]

theorem index_in_range (inside : index < rtlsdr_get_device_count usb) :
    ∃ place, (knownPlaces usb)[index.toNat]? = some place ∧ RefersTo usb index place := by
  have small : index.toNat < (knownPlaces usb).length := by
    rw [← device_count_eq]
    exact inside
  have few := known_few usb
  have found := List.getElem?_eq_getElem small
  have counted : index ≠ 0xFFFFFFFF := by
    rintro rfl
    change 4294967295 < _ at small
    omega
  refine ⟨_, found, device_name_found found, ?_, ?_⟩
  · rw [usb_strings_eq, found]
  · rw [open_eq usb counted, found]

theorem index_coherent_iff (usb : Usb) (index : UInt32) :
    IndexCoherent usb index ↔ index < rtlsdr_get_device_count usb ∨ usb.libusb_init < 0 := by
  rw [IndexCoherent]
  split
  · rename_i inside
    exact iff_of_true (index_in_range inside) (.inl inside)
  · rename_i outside
    constructor
    · intro refused
      have none : (knownPlaces usb)[index.toNat]? = none := by
        rw [List.getElem?_eq_none_iff, ← device_count_eq]
        exact Nat.le_of_not_lt outside
      have error := refused.strings.1
      rw [usb_strings_eq, none] at error
      exact .inr error
    · intro either
      have init := either.resolve_left outside
      refine ⟨if_pos init, ?_, ?_⟩
      · rw [rtlsdr_get_device_usb_strings, if_pos init]
        exact ⟨init, rfl⟩
      · rw [rtlsdr_open, if_pos init]
        exact ⟨by decide, rfl⟩

theorem serial_found (usb : Usb) (serial : String) : SerialFound usb serial := by
  have count := device_count_eq usb
  have few := known_few usb
  let same (i : Nat) : Bool :=
    let found := rtlsdr_get_device_usb_strings usb (UInt32.ofNat i)
    found.r = 0 && found.strings.map Strings.serial = some serial
  have same_iff {i place : Nat} (here : (knownPlaces usb)[i]? = some place) :
      same i = true ↔ SerialAt usb serial place := by
    have inside := (List.getElem?_eq_some_iff.mp here).1
    have index : (UInt32.ofNat i).toNat = i :=
      UInt32.toNat_ofNat_of_lt' (Nat.lt_trans inside (Nat.lt_trans few (by decide)))
    have strings := usb_strings_eq usb (UInt32.ofNat i)
    rw [index, here] at strings
    change (decide _ && decide _) = true ↔ _
    rw [strings, Bool.and_eq_true, decide_eq_true_iff, decide_eq_true_iff]
    rfl
  have result : rtlsdr_get_index_by_serial usb (some serial) =
      if rtlsdr_get_device_count usb = 0 then -2
      else
        match (List.range (knownPlaces usb).length).find? same with
        | some i => i
        | none => -3 := by
    rw [← count]
    rfl
  cases found : (List.range (knownPlaces usb).length).find? same with
  | none =>
    right
    rw [result, found]
    constructor
    · split
      · decide
      · decide
    · intro place member at_place
      obtain ⟨i, inside, here⟩ := List.getElem_of_mem member
      have missed := List.find?_eq_none.mp found i (List.mem_range.mpr inside)
      exact missed ((same_iff ((List.getElem?_eq_getElem inside).trans (congrArg some here))).mpr
        at_place)
  | some i =>
    obtain ⟨matched, member, before⟩ := List.find?_range_eq_some.mp found
    have inside : i < (knownPlaces usb).length := List.mem_range.mp member
    have here := List.getElem?_eq_getElem inside
    have some_known : rtlsdr_get_device_count usb ≠ 0 := by
      intro none
      rw [none] at count
      change 0 = _ at count
      omega
    left
    refine ⟨i, _, here, (same_iff here).mp matched, ?_, ?_⟩
    · rw [result, found, if_neg some_known]
    · intro j below place here at_place
      have missed := before j below
      rw [(same_iff here).mpr at_place] at missed
      cases missed

/-- Only the strings of a missing device give no error whatever is listed. -/
theorem devices_coherent_iff (usb : Usb) :
    (∀ index : UInt32,
      IndexCoherent usb index ↔ index < rtlsdr_get_device_count usb ∨ usb.libusb_init < 0) ∧
    ∀ serial : String, SerialFound usb serial :=
  ⟨index_coherent_iff usb, serial_found usb⟩

def strangeDevice : Usb where
  libusb_init := 0
  libusb_get_device_list := [⟨0x1d6b, 0x0002⟩]
  few := by decide
  libusb_open := fun _ => 0
  libusb_get_device_descriptor := fun _ => 0
  strings := fun _ => ⟨"", "", ""⟩
  bringUp := fun _ => 0

/-- The strings are read with success, and the last index opens the device. -/
theorem strange_device_opened : ¬ IndexCoherent strangeDevice 0 ∧
    (rtlsdr_get_device_usb_strings strangeDevice 0).r = 0 ∧
      (rtlsdr_open strangeDevice 0xFFFFFFFF).touched = [0] := by
  refine ⟨?_, by decide, by decide⟩
  intro coherent
  have outside : ¬ (0 : UInt32) < rtlsdr_get_device_count strangeDevice := by decide
  rw [IndexCoherent, if_neg outside] at coherent
  exact absurd coherent.strings.1 (by decide)

end Soapy.Rtl.DeviceIndex
