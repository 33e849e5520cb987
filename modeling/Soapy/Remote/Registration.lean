import Soapy.Remote.HTTPHeader
import Soapy.Remote.Url
import Soapy.SDR.EnumerateCache

/-! # Finding and opening a device on a server

The client asks a server what it has, and renames some keys of the answers so that they come back
under their first names when the device is opened. The stop key keeps a server from asking
further servers.
-/

namespace Soapy.Remote

open Lib
open Soapy.Multi (isspace isdigit value)
open Soapy.SDR (tagged)

/-- `SOAPY_REMOTE_KWARG_STOP`. -/
def kwargStop : Bytes := ascii "soapy_remote_no_deeper"

/-- `SOAPY_REMOTE_KWARG_PREFIX`. -/
def kwargPrefix : Bytes := ascii "remote:"

/-- `SOAPY_REMOTE_SOCKET_TIMEOUT_US`. -/
def socketTimeoutUs : Int := 100000

/-- The keys that `translateArgs` copies as they are. -/
def notRemote (key : Bytes) : Bool :=
  key ≠ ascii "driver" && key ≠ ascii "type" && find kwargPrefix key = none

def prefixed (key : Bytes) : Bool := find kwargPrefix key = some 0

/-- `key.substr(offset)`. -/
def stripped (key : Bytes) : Bytes := key.drop kwargPrefix.length

def translateArgs (args : Kwargs) : Kwargs :=
  let argsOut := OrdMap.empty.insert kwargStop []
  let argsOut := OrdMap.copyWhere notRemote id args.entries argsOut
  OrdMap.copyWhere prefixed stripped args.entries argsOut

/-- `std::stol` and `std::stoi` for numbers of some bits. -/
def strtol (bits : Nat) (text : Bytes) : Except StdException Int :=
  let text := text.dropWhile isspace
  let unsigned := if text.head? = some 43 ∨ text.head? = some 45 then text.tail else text
  let digits := unsigned.takeWhile isdigit
  if digits = [] then .error .invalid_argument
  else
    let number : Int := if text.head? = some 45 then -value digits else value digits
    if number < -2 ^ (bits - 1) ∨ 2 ^ (bits - 1) ≤ number then .error .out_of_range
    else .ok number

/-- Which URLs the discovery gives for an IP version and a time, and what is in the result behind
    the transaction with one, which is nothing when it does not answer. -/
structure Servers where
  getServerURLs : (ipVer timeoutUs : Int) → List Bytes
  find : (url : Bytes) → (timeoutUs : Int) → (args : Kwargs) → List Kwargs

def serverURL (remote : Bytes) : Bytes :=
  let url := SoapyURL.parse remote
  let url := if url.scheme = [] then { url with scheme := ascii "tcp" } else url
  let url := if url.service = [] then { url with service := ascii "55132" } else url
  url.toString

/-- Move a value to another key. -/
def renamed (key key' : Bytes) (args : Kwargs) : Kwargs :=
  match args.find? key with
  | some v => (args.insert key' v).erase key
  | none => args

/-- What `findRemote` makes of an answer. -/
def resultArgs (url : Bytes) (args : Kwargs) : Kwargs :=
  let args := args.erase kwargStop
  let args := renamed (ascii "driver") (ascii "remote:driver") args
  let args := renamed (ascii "type") (ascii "remote:type") args
  args.insert (ascii "remote") url

/-- `findRemote` for arguments that name a server. -/
def findServer (servers : Servers) (args : Kwargs) (timeoutUs : Int) (remote : Bytes) :
    List Kwargs :=
  let url := serverURL remote
  (servers.find url timeoutUs (translateArgs args)).map (resultArgs url)

def numberArg (bits : Nat) (args : Kwargs) (key : Bytes) (default : Int) :
    Except StdException Int :=
  match args.find? key with
  | some text => strtol bits text
  | none => .ok default

def findRemote (servers : Servers) (args : Kwargs) : Except StdException (List Kwargs) :=
  if args.find? kwargStop ≠ none then .ok []
  else do
    let timeoutUs ← numberArg 64 args (ascii "remote:timeout") socketTimeoutUs
    match args.find? (ascii "remote") with
    | none =>
      let ipVer ← numberArg 32 args (ascii "remote:ipver") 4
      -- the call for each URL comes out of the same checks and goes to the server
      .ok ((servers.getServerURLs ipVer timeoutUs).flatMap (fun url =>
        findServer servers (args.insert (ascii "remote") url) timeoutUs url))
    | some remote => .ok (findServer servers args timeoutUs remote)

/-- What `makeRemote` throws. -/
inductive MakeError where
  | factory_loop
  | missing_URL
deriving DecidableEq

/-- The URL and the arguments that the `SoapyRemoteDevice` is made with. -/
def makeRemote (args : Kwargs) : Except MakeError (Bytes × Kwargs) :=
  if args.find? kwargStop ≠ none then .error .factory_loop
  else
    match args.find? (ascii "remote") with
    | none => .error .missing_URL
    | some remote => .ok (serverURL remote, translateArgs args)

theorem prefixed_iff {key : Bytes} : prefixed key = true ↔ kwargPrefix <+: key := by
  rw [prefixed, decide_eq_true_iff, find_eq_zero_iff]

theorem notRemote_iff {key : Bytes} : notRemote key = true ↔
    key ≠ ascii "driver" ∧ key ≠ ascii "type" ∧ ¬ kwargPrefix <:+: key := by
  simp [notRemote, find_eq_none_iff, and_assoc]

theorem find?_translateArgs_prefixed {args : Kwargs} {key v : Bytes}
    (found : args.find? (kwargPrefix ++ key) = some v) :
    (translateArgs args).find? key = some v := by
  have passes : prefixed (kwargPrefix ++ key) = true :=
    prefixed_iff.mpr (List.prefix_append _ _)
  have strips : stripped (kwargPrefix ++ key) = key := List.drop_left' rfl
  have alone : ∀ key', prefixed key' = true → stripped key' = stripped (kwargPrefix ++ key) →
      key' = kwargPrefix ++ key := by
    intro key' passes' same
    obtain ⟨back, rfl⟩ := prefixed_iff.mp passes'
    have back_same : back = key := by
      rw [strips] at same
      exact (List.drop_left' rfl).symm.trans same
    rw [back_same]
  have copied := OrdMap.find?_copyWhere_some found passes alone
    (OrdMap.copyWhere notRemote id args.entries (OrdMap.empty.insert kwargStop []))
  rwa [strips] at copied

theorem find?_translateArgs {args : Kwargs} {key : Bytes}
    (none : args.find? (kwargPrefix ++ key) = none) :
    (translateArgs args).find? key =
      (OrdMap.copyWhere notRemote id args.entries (OrdMap.empty.insert kwargStop [])).find?
        key := by
  apply OrdMap.find?_copyWhere_none
  intro e member passes same
  obtain ⟨back, whole⟩ := prefixed_iff.mp passes
  have back_same : back = key := by
    rw [← same, ← whole]
    exact (List.drop_left' rfl).symm
  have found := (args.find?_eq_some_iff e.1 e.2).mpr member
  rw [← whole, back_same, none] at found
  cases found

theorem find?_translateArgs_some {args : Kwargs} {key v : Bytes}
    (none : args.find? (kwargPrefix ++ key) = none) (found : args.find? key = some v)
    (copied : notRemote key = true) : (translateArgs args).find? key = some v := by
  rw [find?_translateArgs none]
  exact OrdMap.find?_copyWhere_some found copied (fun _ _ same => same) _

theorem find?_translateArgs_none {args : Kwargs} {key : Bytes}
    (none : args.find? (kwargPrefix ++ key) = none)
    (absent : args.find? key = .none ∨ notRemote key = false) :
    (translateArgs args).find? key = (OrdMap.empty.insert kwargStop ([] : Bytes)).find? key := by
  rw [find?_translateArgs none]
  apply OrdMap.find?_copyWhere_none
  intro e member passes same
  have same : e.1 = key := same
  have found := (args.find?_eq_some_iff e.1 e.2).mpr member
  rw [same] at found passes
  cases absent with
  | inl absent =>
    rw [absent] at found
    cases found
  | inr other =>
    rw [other] at passes
    cases passes

theorem stop_translateArgs (args : Kwargs) : (translateArgs args).find? kwargStop ≠ none := by
  cases remote : args.find? (kwargPrefix ++ kwargStop) with
  | some v =>
    rw [find?_translateArgs_prefixed remote]
    exact Option.some_ne_none v
  | none =>
    have plain : notRemote kwargStop = true := by decide
    cases found : args.find? kwargStop with
    | some v =>
      rw [find?_translateArgs_some remote found plain]
      exact Option.some_ne_none v
    | none =>
      rw [find?_translateArgs_none remote (.inl found), OrdMap.find?_insert, if_pos rfl]
      exact Option.some_ne_none _

theorem find?_renamed (key : Bytes) {key' : Bytes} {args : Kwargs} (free : args.find? key' = none)
    (k : Bytes) : (renamed key key' args).find? k =
      if k = key then none else if k = key' then args.find? key else args.find? k := by
  cases found : args.find? key with
  | none =>
    rw [renamed, found]
    show args.find? k = _
    by_cases same : k = key
    · rw [if_pos same, same, found]
    · rw [if_neg same]
      by_cases same' : k = key'
      · rw [if_pos same', same', free]
      · rw [if_neg same']
  | some v =>
    rw [renamed, found]
    show ((args.insert key' v).erase key).find? k = _
    rw [OrdMap.find?_erase, OrdMap.find?_insert]
    congr

theorem prefix_ne {other : Bytes} (plain : prefixed other = false) (key : Bytes) :
    kwargPrefix ++ key ≠ other := by
  intro same
  have passes : prefixed other = true := prefixed_iff.mpr ⟨key, same⟩
  rw [plain] at passes
  cases passes

/-- No key has the prefix anywhere. -/
def Plain (args : Kwargs) : Prop := ∀ pair ∈ args.entries, ¬ kwargPrefix <:+: pair.1

/-- An answer of a server as `Device::enumerate` gives it to the caller. -/
def discovered (url : Bytes) (args : Kwargs) : Kwargs :=
  tagged (ascii "remote") (resultArgs url args)

section Discovered

variable {args : Kwargs} (plain : Plain args) (url : Bytes)

include plain

theorem Plain.none {key : Bytes} (inside : kwargPrefix <:+: key) : args.find? key = none := by
  cases found : args.find? key with
  | none => rfl
  | some v => exact absurd inside (plain _ ((args.find?_eq_some_iff key v).mp found))

theorem find?_discovered (key : Bytes) : (discovered url args).find? key =
    if key = ascii "driver" then some (ascii "remote")
    else if key = ascii "remote" then some url
    else if key = ascii "type" then none
    else if key = ascii "remote:type" then args.find? (ascii "type")
    else if key = ascii "remote:driver" then args.find? (ascii "driver")
    else if key = kwargStop then none
    else args.find? key := by
  have erased : ∀ k, (args.erase kwargStop).find? k =
      if k = kwargStop then none else args.find? k := by
    intro k
    rw [OrdMap.find?_erase]
    congr
  have no_driver : (args.erase kwargStop).find? (ascii "remote:driver") = none := by
    rw [erased, if_neg (by decide)]
    exact plain.none ⟨[], ascii "driver", by decide⟩
  have driver := find?_renamed (ascii "driver") no_driver
  have no_type : (renamed (ascii "driver") (ascii "remote:driver")
      (args.erase kwargStop)).find? (ascii "remote:type") = none := by
    rw [driver, if_neg (by decide), if_neg (by decide), erased, if_neg (by decide)]
    exact plain.none ⟨[], ascii "type", by decide⟩
  have type := find?_renamed (ascii "type") no_type
  have stop_driver : ascii "driver" ≠ kwargStop := by decide
  have stop_type : ascii "type" ≠ kwargStop := by decide
  have type_driver : ascii "type" ≠ ascii "driver" := by decide
  have type_remote : ascii "type" ≠ ascii "remote:driver" := by decide
  unfold discovered tagged resultArgs
  rw [OrdMap.find?_insert, OrdMap.find?_insert, type, driver, driver, erased, erased, erased,
    if_neg stop_driver, if_neg stop_type, if_neg type_driver, if_neg type_remote]
  by_cases same : key = ascii "driver"
  · rw [if_pos same, if_pos same]
  · simp [same]

theorem find?_prefixed (key : Bytes) : (discovered url args).find? (kwargPrefix ++ key) =
    if key = ascii "type" then args.find? (ascii "type")
    else if key = ascii "driver" then args.find? (ascii "driver")
    else none := by
  have absent : args.find? (kwargPrefix ++ key) = none :=
    plain.none (List.prefix_append _ _).isInfix
  have renamed_type : kwargPrefix ++ key = ascii "remote:type" ↔ key = ascii "type" :=
    List.append_right_inj kwargPrefix
  have renamed_driver : kwargPrefix ++ key = ascii "remote:driver" ↔ key = ascii "driver" :=
    List.append_right_inj kwargPrefix
  have no_driver : kwargPrefix ++ key ≠ ascii "driver" := prefix_ne (by decide) key
  have no_remote : kwargPrefix ++ key ≠ ascii "remote" := prefix_ne (by decide) key
  have no_type : kwargPrefix ++ key ≠ ascii "type" := prefix_ne (by decide) key
  have no_stop : kwargPrefix ++ key ≠ kwargStop := prefix_ne (by decide) key
  rw [find?_discovered plain, if_neg no_driver, if_neg no_remote, if_neg no_type,
    if_neg no_stop, absent]
  simp only [renamed_type, renamed_driver]

theorem translateArgs_discovered : translateArgs (discovered url args) =
    (args.insert kwargStop []).insert (ascii "remote") url := by
  apply OrdMap.ext_find?
  intro key
  have remote := find?_prefixed plain url key
  have here := find?_discovered plain url key
  rw [OrdMap.find?_insert, OrdMap.find?_insert]
  by_cases type : key = ascii "type"
  · subst type
    rw [if_neg (by decide), if_neg (by decide)]
    rw [if_pos rfl] at remote
    cases found : args.find? (ascii "type") with
    | some v => exact find?_translateArgs_prefixed (remote.trans found)
    | none =>
      rw [find?_translateArgs_none (remote.trans found) (.inr (by decide)),
        OrdMap.find?_insert, if_neg (by decide)]
      rfl
  rw [if_neg type] at remote
  by_cases driver : key = ascii "driver"
  · subst driver
    rw [if_neg (by decide), if_neg (by decide)]
    rw [if_pos rfl] at remote
    cases found : args.find? (ascii "driver") with
    | some v => exact find?_translateArgs_prefixed (remote.trans found)
    | none =>
      rw [find?_translateArgs_none (remote.trans found) (.inr (by decide)),
        OrdMap.find?_insert, if_neg (by decide)]
      rfl
  rw [if_neg driver] at remote here
  by_cases url_key : key = ascii "remote"
  · rw [if_pos url_key] at here ⊢
    exact find?_translateArgs_some remote here (by rw [url_key]; decide)
  rw [if_neg url_key, if_neg type] at here
  rw [if_neg url_key]
  by_cases inside : kwargPrefix <:+: key
  · have skipped : notRemote key = false := by
      cases copied : notRemote key with
      | false => rfl
      | true => exact absurd inside (notRemote_iff.mp copied).2.2
    have stop : key ≠ kwargStop := by
      rintro rfl
      exact absurd inside (by decide)
    rw [find?_translateArgs_none remote (.inr skipped), OrdMap.find?_insert, if_neg stop,
      if_neg stop, plain.none inside]
    rfl
  have copied : notRemote key = true := notRemote_iff.mpr ⟨driver, type, inside⟩
  have unprefixed : ∀ other, prefixed other = true → key ≠ other := by
    rintro other passes rfl
    exact inside (prefixed_iff.mp passes).isInfix
  rw [if_neg (unprefixed _ (by decide)), if_neg (unprefixed _ (by decide))] at here
  by_cases stop : key = kwargStop
  · rw [if_pos stop] at here ⊢
    rw [find?_translateArgs_none remote (.inl here), OrdMap.find?_insert, if_pos stop]
  rw [if_neg stop] at here ⊢
  cases found : args.find? key with
  | some v => exact find?_translateArgs_some remote (here.trans found) copied
  | none =>
    rw [find?_translateArgs_none remote (.inl (here.trans found)), OrdMap.find?_insert,
      if_neg stop]
    rfl

theorem makeRemote_discovered : makeRemote (discovered url args) =
    .ok (serverURL url, (args.insert kwargStop []).insert (ascii "remote") url) := by
  have stop : (discovered url args).find? kwargStop = none := by
    rw [find?_discovered plain, if_neg (by decide), if_neg (by decide), if_neg (by decide),
      if_neg (by decide), if_neg (by decide), if_pos rfl]
  have remote : (discovered url args).find? (ascii "remote") = some url := by
    rw [find?_discovered plain, if_neg (by decide), if_pos rfl]
  rw [makeRemote, if_neg (not_not.mpr stop), remote, translateArgs_discovered plain]

end Discovered

def FromServers (servers : Servers) (results : List Kwargs) : Prop :=
  ∀ result ∈ results, ∃ url answer timeoutUs sent,
    answer ∈ servers.find url timeoutUs (translateArgs sent) ∧ result = resultArgs url answer

section Search

variable (servers : Servers)

theorem findServer_from (args : Kwargs) (timeoutUs : Int) (remote : Bytes) :
    FromServers servers (findServer servers args timeoutUs remote) := by
  intro result member
  obtain ⟨answer, inside, rfl⟩ := List.mem_map.mp member
  exact ⟨serverURL remote, answer, timeoutUs, args, inside, rfl⟩

theorem findRemote_from {args : Kwargs} {results : List Kwargs}
    (found : findRemote servers args = .ok results) : FromServers servers results := by
  unfold findRemote at found
  split at found
  · cases found
    exact fun _ member => absurd member List.not_mem_nil
  · cases timeout : numberArg 64 args (ascii "remote:timeout") socketTimeoutUs with
    | error e =>
      rw [timeout] at found
      cases found
    | ok timeoutUs =>
      rw [timeout] at found
      cases remote : args.find? (ascii "remote") with
      | some named =>
        simp only [remote] at found
        cases found
        exact findServer_from servers args timeoutUs named
      | none =>
        simp only [remote] at found
        cases version : numberArg 32 args (ascii "remote:ipver") 4 with
        | error e =>
          rw [version] at found
          cases found
        | ok ipVer =>
          rw [version] at found
          cases found
          intro result member
          obtain ⟨url, _, inside⟩ := List.mem_flatMap.mp member
          exact findServer_from servers _ timeoutUs url result inside

theorem findRemote_translated (args : Kwargs) :
    findRemote servers (translateArgs args) = .ok [] := by
  unfold findRemote
  rw [if_pos (stop_translateArgs args)]

end Search

/-- What is found on a server is opened there with the arguments that the server enumerated, and
    no server searches further. -/
theorem discovered_survive (servers : Servers) (url : Bytes) (args : Kwargs) (plain : Plain args) :
    (∀ client results, findRemote servers client = .ok results → FromServers servers results) ∧
    makeRemote (tagged (ascii "remote") (resultArgs url args)) =
      .ok (serverURL url, (args.insert kwargStop []).insert (ascii "remote") url) ∧
    ∀ any, (translateArgs any).find? kwargStop ≠ none ∧
      findRemote servers (translateArgs any) = .ok [] :=
  ⟨fun _ _ found => findRemote_from servers found, makeRemote_discovered plain url,
    fun any => ⟨stop_translateArgs any, findRemote_translated servers any⟩⟩

def dongle : Kwargs :=
  (OrdMap.empty.insert (ascii "driver") (ascii "rtlsdr")).insert (ascii "serial") (ascii "1")

theorem dongle_survives : Plain dongle ∧
    makeRemote (tagged (ascii "remote") (resultArgs (ascii "tcp://host:55132") dongle)) =
      .ok (serverURL (ascii "tcp://host:55132"),
        (dongle.insert kwargStop []).insert (ascii "remote") (ascii "tcp://host:55132")) := by
  have plain : Plain dongle := by
    unfold Plain
    decide
  have servers : Servers := ⟨fun _ _ => [ascii "tcp://host:55132"], fun _ _ _ => [dongle]⟩
  exact ⟨plain, (discovered_survive servers _ dongle plain).2.1⟩

end Soapy.Remote
