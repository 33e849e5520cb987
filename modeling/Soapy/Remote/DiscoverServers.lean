import Soapy.Lib.OrdMap

/-! # The servers that both discoveries find

The results of SSDP and mDNS are merged, servers that repeat a URL of another are taken out, and
each of the others gives one URL.
-/

namespace Soapy.Remote

open Lib

abbrev VersionURLs := OrdMap Int Bytes

/-- uuid -> IP version -> URL. -/
abbrev ServerURLs := OrdMap Bytes VersionURLs

/-- `uuidToUrl[uuid][ver] = url`. -/
def assignURL (uuid : Bytes) (uuidToUrl : ServerURLs) (verToUrl : Int × Bytes) : ServerURLs :=
  let urls := (uuidToUrl.find? uuid).getD .empty
  uuidToUrl.insert uuid (urls.insert verToUrl.1 verToUrl.2)

/-- The results of mDNS over those of SSDP. -/
def mergeURLs (ssdpUrls mdnsUrls : ServerURLs) : ServerURLs :=
  mdnsUrls.entries.foldl (fun uuidToUrl uuidToMap =>
    uuidToMap.2.entries.foldl (assignURL uuidToMap.1) uuidToUrl) ssdpUrls

/-- The pairs of a version and a URL that were seen so far. -/
abbrev KnownURLs := List (Int × Bytes)

def checkURL (s : Nat × KnownURLs) (urlPair : Int × Bytes) : Nat × KnownURLs :=
  (s.1 + (if urlPair ∈ s.2 then 1 else 0), urlPair :: s.2)

def checkServer (s : ServerURLs × KnownURLs) (it : Bytes × VersionURLs) :
    ServerURLs × KnownURLs :=
  let (duplicates, knownURLs) := it.2.entries.foldl checkURL (0, s.2)
  (if duplicates ≠ 0 then s.1.erase it.1 else s.1, knownURLs)

def filterURLs (uuidToUrl : ServerURLs) : ServerURLs :=
  (uuidToUrl.entries.foldl checkServer (uuidToUrl, [])).1

/-- Prefer a version match when found, otherwise fall back to any. -/
def selectURL (ipVer : Int) (urls : VersionURLs) : Option Bytes :=
  match urls.find? ipVer with
  | some url => some url
  | none => urls.entries.head?.map Prod.snd

def selectURLs (ipVer : Int) (entries : List (Bytes × VersionURLs)) : List Bytes :=
  entries.filterMap (fun uuidToMap => selectURL ipVer uuidToMap.2)

def getServerURLs (ipVer : Int) (ssdpUrls mdnsUrls : ServerURLs) : List Bytes :=
  selectURLs ipVer (filterURLs (mergeURLs ssdpUrls mdnsUrls)).entries

def Shares (urls urls' : VersionURLs) : Prop :=
  ∃ ver url, urls.find? ver = some url ∧ urls'.find? ver = some url

def Repeats (uuidToUrl : ServerURLs) (uuid : Bytes) (urls : VersionURLs) : Prop :=
  ∃ uuid' urls', uuid' < uuid ∧ uuidToUrl.find? uuid' = some urls' ∧ Shares urls' urls

theorem checkURL_all (s : Nat × KnownURLs) {entries : List (Int × Bytes)}
    (distinct : entries.Nodup) :
    (∀ pair, pair ∈ (entries.foldl checkURL s).2 ↔ pair ∈ s.2 ∨ pair ∈ entries) ∧
    ((entries.foldl checkURL s).1 = 0 ↔ s.1 = 0 ∧ ∀ pair ∈ entries, pair ∉ s.2) := by
  induction entries generalizing s with
  | nil => simp
  | cons pair rest ih =>
    obtain ⟨alone, distinct⟩ := List.nodup_cons.mp distinct
    obtain ⟨known, count⟩ := ih (checkURL s pair) distinct
    rw [List.foldl_cons]
    constructor
    · intro pair'
      rw [known, checkURL, List.mem_cons, List.mem_cons]
      tauto
    · rw [count, List.forall_mem_cons]
      have first : (checkURL s pair).1 = 0 ↔ s.1 = 0 ∧ pair ∉ s.2 := by
        unfold checkURL
        split <;> simp [*]
      have others : (∀ pair' ∈ rest, pair' ∉ (checkURL s pair).2) ↔
          ∀ pair' ∈ rest, pair' ∉ s.2 := by
        refine forall₂_congr fun pair' member => ?_
        have other : pair' ≠ pair := fun same => alone (same ▸ member)
        simp [checkURL, other]
      rw [first, others, and_assoc]

structure Filtering (uuidToUrl : ServerURLs) (front : List (Bytes × VersionURLs))
    (s : ServerURLs × KnownURLs) : Prop where
  known : ∀ ver url, (ver, url) ∈ s.2 ↔ ∃ it ∈ front, it.2.find? ver = some url
  kept : ∀ uuid urls, s.1.find? uuid = some urls ↔ uuidToUrl.find? uuid = some urls ∧
    ¬ ((uuid, urls) ∈ front ∧ Repeats uuidToUrl uuid urls)

section Filter

variable {uuidToUrl : ServerURLs} {front rest : List (Bytes × VersionURLs)}
  {s : ServerURLs × KnownURLs} {it : Bytes × VersionURLs}

theorem mem_front (split : uuidToUrl.entries = front ++ it :: rest) (uuid : Bytes)
    (urls : VersionURLs) : (uuid, urls) ∈ front ↔
      uuid < it.1 ∧ uuidToUrl.find? uuid = some urls := by
  have sorted := uuidToUrl.sorted
  rw [split, List.pairwise_append, List.pairwise_cons] at sorted
  obtain ⟨_, ⟨above, _⟩, below⟩ := sorted
  rw [OrdMap.find?_eq_some_iff, split, List.mem_append, List.mem_cons]
  constructor
  · intro member
    exact ⟨below _ member it List.mem_cons_self, .inl member⟩
  · rintro ⟨less, member | rfl | member⟩
    · exact member
    · exact absurd less (lt_irrefl _)
    · exact absurd less (lt_asymm (above _ member))

theorem Filtering.repeats (filtering : Filtering uuidToUrl front s)
    (split : uuidToUrl.entries = front ++ it :: rest) :
    (it.2.entries.foldl checkURL (0, s.2)).1 = 0 ↔ ¬ Repeats uuidToUrl it.1 it.2 := by
  rw [(checkURL_all (0, s.2) it.2.nodup).2]
  constructor
  · rintro ⟨-, fresh⟩ ⟨uuid, urls, less, found, ver, url, theirs, ours⟩
    have member := (mem_front split uuid urls).mpr ⟨less, found⟩
    have known := (filtering.known ver url).mpr ⟨_, member, theirs⟩
    exact fresh (ver, url) ((it.2.find?_eq_some_iff ver url).mp ours) known
  · intro single
    refine ⟨rfl, ?_⟩
    rintro ⟨ver, url⟩ ours known
    obtain ⟨⟨uuid, urls⟩, member, theirs⟩ := (filtering.known ver url).mp known
    obtain ⟨less, found⟩ := (mem_front split uuid urls).mp member
    exact single ⟨uuid, urls, less, found, ver, url, theirs,
      (it.2.find?_eq_some_iff ver url).mpr ours⟩

theorem Filtering.step (filtering : Filtering uuidToUrl front s)
    (split : uuidToUrl.entries = front ++ it :: rest) :
    Filtering uuidToUrl (front ++ [it]) (checkServer s it) := by
  have here : uuidToUrl.find? it.1 = some it.2 := by
    rw [OrdMap.find?_eq_some_iff, split]
    exact List.mem_append_right _ List.mem_cons_self
  have repeats := filtering.repeats split
  constructor
  · intro ver url
    have known := (checkURL_all (0, s.2) it.2.nodup).1 (ver, url)
    show (ver, url) ∈ (it.2.entries.foldl checkURL (0, s.2)).2 ↔ _
    rw [known, filtering.known, ← it.2.find?_eq_some_iff]
    simp [or_and_right, exists_or]
  · intro uuid urls
    by_cases same : uuid = it.1
    · subst same
      have fresh : (it.1, urls) ∉ front := fun member =>
        absurd ((mem_front split _ _).mp member).1 (lt_irrefl _)
      have before := filtering.kept it.1 urls
      by_cases zero : (it.2.entries.foldl checkURL (0, s.2)).1 = 0
      · have turn : (checkServer s it).1 = s.1 := by simp [checkServer, zero]
        rw [turn, before]
        refine and_congr_right fun found => ?_
        rw [here, Option.some.injEq] at found
        subst found
        simp [fresh, repeats.mp zero]
      · have turn : (checkServer s it).1 = s.1.erase it.1 := by simp [checkServer, zero]
        have repeated : Repeats uuidToUrl it.1 it.2 := not_not.mp (mt repeats.mpr zero)
        rw [turn, OrdMap.find?_erase, if_pos rfl]
        constructor
        · intro none
          cases none
        · rintro ⟨found, single⟩
          rw [here, Option.some.injEq] at found
          subst found
          exact absurd ⟨List.mem_append_right _ List.mem_cons_self, repeated⟩ single
    · have turn : (checkServer s it).1.find? uuid = s.1.find? uuid := by
        unfold checkServer
        show (if _ then s.1.erase it.1 else s.1).find? uuid = _
        split
        · rw [OrdMap.find?_erase, if_neg same]
        · rfl
      have other : (uuid, urls) ≠ it := fun equal => same (equal ▸ rfl)
      rw [turn, filtering.kept]
      simp [other]

theorem Filtering.all (filtering : Filtering uuidToUrl front s)
    (split : uuidToUrl.entries = front ++ rest) :
    Filtering uuidToUrl uuidToUrl.entries (rest.foldl checkServer s) := by
  induction rest generalizing front s with
  | nil =>
    rw [List.append_nil] at split
    rw [split]
    exact filtering
  | cons it rest ih =>
    have next : uuidToUrl.entries = (front ++ [it]) ++ rest := by simp [split]
    exact ih (filtering.step split) next

end Filter

theorem find?_filterURLs (uuidToUrl : ServerURLs) (uuid : Bytes) (urls : VersionURLs) :
    (filterURLs uuidToUrl).find? uuid = some urls ↔
      uuidToUrl.find? uuid = some urls ∧ ¬ Repeats uuidToUrl uuid urls := by
  have start : Filtering uuidToUrl [] (uuidToUrl, []) := by
    constructor <;> simp
  have filtered := (start.all rfl).kept uuid urls
  rw [← OrdMap.find?_eq_some_iff] at filtered
  rw [filterURLs, filtered]
  tauto

def Contributes (ipVer : Int) (kept : ServerURLs) (serverUrls : List Bytes) (uuid : Bytes)
    (urls : VersionURLs) : Prop :=
  ∃ front url back, kept.entries = front ++ (uuid, urls) :: back ∧
    serverUrls = selectURLs ipVer front ++ url :: selectURLs ipVer back ∧
    (∃ ver, urls.find? ver = some url) ∧
    ∀ preferred, urls.find? ipVer = some preferred → url = preferred

def HidesNone (ipVer : Int) (ssdpUrls mdnsUrls : ServerURLs) : Prop :=
  ∀ uuid urls, (mergeURLs ssdpUrls mdnsUrls).find? uuid = some urls → urls ≠ .empty →
    Contributes ipVer (filterURLs (mergeURLs ssdpUrls mdnsUrls))
      (getServerURLs ipVer ssdpUrls mdnsUrls) uuid urls ∨
    ∃ uuid' urls', (filterURLs (mergeURLs ssdpUrls mdnsUrls)).find? uuid' = some urls' ∧
      Shares urls' urls

def Rooted (uuidToUrl : ServerURLs) : Prop :=
  ∀ uuid urls, uuidToUrl.find? uuid = some urls → Repeats uuidToUrl uuid urls →
    ∃ uuid' urls', uuid' < uuid ∧ uuidToUrl.find? uuid' = some urls' ∧ Shares urls' urls ∧
      ¬ Repeats uuidToUrl uuid' urls'

theorem Shares.nonempty {urls urls' : VersionURLs} (shares : Shares urls urls') :
    urls' ≠ .empty := by
  rintro rfl
  obtain ⟨ver, url, _, found⟩ := shares
  cases found

theorem Shares.symm {urls urls' : VersionURLs} (shares : Shares urls urls') :
    Shares urls' urls := by
  obtain ⟨ver, url, left, right⟩ := shares
  exact ⟨ver, url, right, left⟩

theorem selectURL_some (ipVer : Int) {urls : VersionURLs} (nonempty : urls ≠ .empty) :
    ∃ url, selectURL ipVer urls = some url ∧ (∃ ver, urls.find? ver = some url) ∧
      ∀ preferred, urls.find? ipVer = some preferred → url = preferred := by
  unfold selectURL
  cases found : urls.find? ipVer with
  | some url => exact ⟨url, rfl, ⟨ipVer, found⟩, fun _ same => Option.some.inj same⟩
  | none =>
    cases entries : urls.entries with
    | nil => exact absurd (OrdMap.ext entries) nonempty
    | cons first rest =>
      have member : first ∈ urls.entries := entries ▸ List.mem_cons_self
      have first_found := (urls.find?_eq_some_iff first.1 first.2).mpr member
      exact ⟨first.2, rfl, ⟨first.1, first_found⟩, fun _ none => absurd none (by simp)⟩

section Hides

variable {uuidToUrl : ServerURLs} {uuid : Bytes} {urls : VersionURLs}

theorem contributes_kept (ipVer : Int) (kept : uuidToUrl.find? uuid = some urls)
    (nonempty : urls ≠ .empty) :
    Contributes ipVer uuidToUrl (selectURLs ipVer uuidToUrl.entries) uuid urls := by
  obtain ⟨front, back, split, _⟩ := OrdMap.find?_split kept
  obtain ⟨url, selected, rest⟩ := selectURL_some ipVer nonempty
  refine ⟨front, url, back, split, ?_, rest⟩
  rw [split, selectURLs, List.filterMap_append, List.filterMap_cons, selected]
  rfl

theorem kept_below {uuid' : Bytes} {urls' : VersionURLs}
    (found : uuidToUrl.find? uuid = some urls) (repeats : Repeats uuidToUrl uuid urls)
    (kept : (filterURLs uuidToUrl).find? uuid' = some urls') (shares : Shares urls' urls) :
    uuid' < uuid := by
  obtain ⟨found', single⟩ := (find?_filterURLs uuidToUrl uuid' urls').mp kept
  rcases lt_trichotomy uuid' uuid with below | rfl | above
  · exact below
  · rw [found, Option.some.injEq] at found'
    exact absurd (found' ▸ repeats) single
  · exact absurd ⟨uuid, urls, above, found, shares.symm⟩ single

end Hides

/-- Discovery hides no server exactly when no server repeats only URLs of servers that the filter
    takes out. -/
theorem hidesNone_iff (ipVer : Int) (ssdpUrls mdnsUrls : ServerURLs) :
    HidesNone ipVer ssdpUrls mdnsUrls ↔ Rooted (mergeURLs ssdpUrls mdnsUrls) := by
  constructor
  · intro hides uuid urls found repeats
    have nonempty : urls ≠ .empty := by
      obtain ⟨_, _, _, _, shares⟩ := repeats
      exact shares.nonempty
    rcases hides uuid urls found nonempty with contributes | ⟨uuid', urls', kept, shares⟩
    · obtain ⟨front, url, back, split, _⟩ := contributes
      have kept : (filterURLs (mergeURLs ssdpUrls mdnsUrls)).find? uuid = some urls := by
        rw [OrdMap.find?_eq_some_iff, split]
        exact List.mem_append_right _ List.mem_cons_self
      exact absurd repeats ((find?_filterURLs _ uuid urls).mp kept).2
    · obtain ⟨found', single⟩ := (find?_filterURLs _ uuid' urls').mp kept
      exact ⟨uuid', urls', kept_below found repeats kept shares, found', shares, single⟩
  · intro rooted uuid urls found nonempty
    by_cases repeats : Repeats (mergeURLs ssdpUrls mdnsUrls) uuid urls
    · obtain ⟨uuid', urls', _, found', shares, single⟩ := rooted uuid urls found repeats
      have kept := (find?_filterURLs _ uuid' urls').mpr ⟨found', single⟩
      exact .inr ⟨uuid', urls', kept, shares⟩
    · have kept := (find?_filterURLs _ uuid urls).mpr ⟨found, repeats⟩
      exact .inl (contributes_kept ipVer kept nonempty)

/-- The second of three servers has a URL of the first and one of the third. -/
def chain : ServerURLs :=
  ((OrdMap.empty.insert (ascii "a") (OrdMap.empty.insert 4 (ascii "tcp://h:1"))).insert (ascii "b")
    ((OrdMap.empty.insert 4 (ascii "tcp://h:1")).insert 6 (ascii "tcp://[::1]:2"))).insert
      (ascii "c") (OrdMap.empty.insert 6 (ascii "tcp://[::1]:2"))

theorem filter_chain : (filterURLs (mergeURLs chain .empty)).entries =
    [(ascii "a", OrdMap.empty.insert 4 (ascii "tcp://h:1"))] := by
  rfl

/-- The third server is not in the result, and none that is has its URL. -/
theorem chain_hides : ¬ HidesNone 4 chain .empty := by
  intro hides
  have found : (mergeURLs chain .empty).find? (ascii "c") =
      some (OrdMap.empty.insert 6 (ascii "tcp://[::1]:2")) := rfl
  have nonempty : OrdMap.empty.insert 6 (ascii "tcp://[::1]:2") ≠ (.empty : VersionURLs) := by
    decide
  rcases hides _ _ found nonempty with contributes | ⟨uuid, urls, kept, ver, url, first, third⟩
  · obtain ⟨front, _, back, split, _⟩ := contributes
    have member : (ascii "c", OrdMap.empty.insert 6 (ascii "tcp://[::1]:2")) ∈
        (filterURLs (mergeURLs chain .empty)).entries :=
      split ▸ List.mem_append_right _ List.mem_cons_self
    rw [filter_chain] at member
    exact absurd member (by decide)
  · rw [OrdMap.find?_eq_some_iff, filter_chain, List.mem_singleton, Prod.mk.injEq] at kept
    obtain ⟨-, rfl⟩ := kept
    rw [OrdMap.find?_eq_some_iff] at first third
    have same := List.mem_singleton.mp first
    have same' := List.mem_singleton.mp third
    rw [same] at same'
    exact absurd same' (by decide)

end Soapy.Remote
