import Spork.Context.Entities

/-!
# Whose domain it is

`get_context` goes from the sender's domain to the name of the company that lists it, and from that
name to a company.  Both indices keep the last record under a folded key.

* `recognized_some_iff`: which company is described.
* `LastNamesake.eq_of_distinct`: with names that differ in more than case, it is the one that lists
  the domain.
* `get_context_describes_owner_iff`: in general, it lists the domain exactly if the last company of
  that name does.
-/

set_option autoImplicit false

namespace Spork

open Dicts
open JsonReader (Value points)

section

variable (lower : PyText → PyText)

/-- The company lists a domain with this key. -/
def Company.Lists (company : Company PyText) (key : PyText) : Prop :=
  ∃ domain ∈ company.domains, lower domain = key

instance (company : Company PyText) (key : PyText) : Decidable (company.Lists lower key) :=
  inferInstanceAs (Decidable (∃ domain ∈ company.domains, lower domain = key))

/-- The last company with the name of this one, up to case. -/
def LastNamesake (companies : List (Company PyText)) (owner namesake : Company PyText) : Prop :=
  LastWhere (fun company => lower company.name = lower owner.name) companies namesake

/-- Companies whose names differ in more than case have no namesakes. -/
theorem LastNamesake.eq_of_distinct {lower : PyText → PyText} {companies : List (Company PyText)}
    {owner namesake : Company PyText} (h : LastNamesake lower companies owner namesake)
    (hdistinct : (companies.map fun company => lower company.name).Nodup)
    (howner : owner ∈ companies) : namesake = owner :=
  List.inj_on_of_nodup_map hdistinct h.mem howner h.holds

/-- The indices of companies and domains are made from these companies. -/
structure EntityContextProvider.Indexes (provider : EntityContextProvider)
    (companies : List (Company PyText)) : Prop where
  byName : provider.companies = companies.map fun company => (lower company.name, company)
  byDomain : provider.domains = companies.flatMap fun company =>
    company.domains.map fun name => (lower name, ⟨name, some company.name⟩)

/-- What construction leaves behind. -/
theorem EntityContextProvider.init_indexes {data : EntityData} {provider : EntityContextProvider}
    (h : EntityContextProvider.init lower data = .ok provider) :
    ∃ companies, data.companies.mapM Company.texts = .ok companies ∧
      provider.Indexes lower companies := by
  rw [EntityContextProvider.init] at h
  cases hcompanies : data.companies.mapM Company.texts with
  | error e => rw [hcompanies] at h; cases h
  | ok companies =>
    cases hmetadata : data.serviceMetadata.mapM Service.nameAndCategory with
    | error e => rw [hcompanies, hmetadata] at h; cases h
    | ok metadata =>
      cases hemails : data.people.mapM (emailKey lower) with
      | error e => rw [hcompanies, hmetadata, hemails] at h; cases h
      | ok peopleByEmail =>
        cases hnames : data.people.mapM (nameKey lower) with
        | error e => rw [hcompanies, hmetadata, hemails, hnames] at h; cases h
        | ok peopleByName =>
          rw [hcompanies, hmetadata, hemails, hnames] at h
          cases h
          exact ⟨companies, rfl, rfl, rfl⟩

variable {lower} {provider : EntityContextProvider} {companies : List (Company PyText)}

namespace EntityContextProvider.Indexes

/-- The domain that is found belongs to the last company that lists it. -/
theorem lookupDomain_eq_some_iff (h : provider.Indexes lower companies) {name : PyText}
    {domain : Domain} :
    provider.lookupDomain lower name = some domain ↔
      ∃ owner, LastWhere (fun company => company.Lists lower (lower name)) companies owner ∧
        ∃ listed, LastWhere (fun listed => lower listed = lower name) owner.domains listed ∧
          ⟨listed, some owner.name⟩ = domain := by
  rw [EntityContextProvider.lookupDomain, h.byDomain]
  exact get_nested

/-- The company that is found is the last one of the name. -/
theorem lookupCompany_eq_some_iff (h : provider.Indexes lower companies) {name : PyText}
    {company : Company PyText} :
    provider.lookupCompany lower name = some company ↔
      LastWhere (fun company => lower company.name = lower name) companies company := by
  rw [EntityContextProvider.lookupCompany, h.byName]
  refine (get_comprehension (f := fun company => company)).trans ⟨?_, fun hlast => ⟨_, hlast, rfl⟩⟩
  rintro ⟨_, hlast, rfl⟩
  exact hlast

/-- The company of an indexed domain is indexed. -/
theorem lookupCompany_isSome (h : provider.Indexes lower companies) {owner : Company PyText}
    (howner : owner ∈ companies) :
    ∃ company, provider.lookupCompany lower owner.name = some company := by
  obtain ⟨company, hlast⟩ := exists_lastWhere
    (p := fun company : Company PyText => lower company.name = lower owner.name)
    ⟨owner, howner, rfl⟩
  exact ⟨company, h.lookupCompany_eq_some_iff.2 hlast⟩

variable {message : NormalizedMessage}

/-- **Which company is described**: the last one with the name of the last one to list the
domain. -/
theorem recognized_some_iff (h : provider.Indexes lower companies) {domain : Domain}
    {company : Company PyText} :
    provider.recognized lower message = .ok (some (domain, company)) ↔
      ∃ owner, LastWhere (fun company => company.Lists lower (lower (points message.fromDomain)))
          companies owner ∧
        (∃ listed, LastWhere (fun listed => lower listed = lower (points message.fromDomain))
          owner.domains listed ∧ ⟨listed, some owner.name⟩ = domain) ∧
        LastNamesake lower companies owner company := by
  constructor
  · intro hrecognized
    rw [recognized] at hrecognized
    cases hdomain : provider.lookupDomain lower (points message.fromDomain) with
    | none => rw [hdomain] at hrecognized; cases hrecognized
    | some found =>
      obtain ⟨owner, howner, listed, hlisted, rfl⟩ := h.lookupDomain_eq_some_iff.1 hdomain
      rw [hdomain] at hrecognized
      cases hcompany : provider.lookupCompany lower owner.name with
      | none => simp only [hcompany] at hrecognized; cases hrecognized
      | some namesake =>
        simp only [hcompany] at hrecognized
        cases hrecognized
        exact ⟨owner, howner, ⟨listed, hlisted, rfl⟩, h.lookupCompany_eq_some_iff.1 hcompany⟩
  · rintro ⟨owner, howner, ⟨listed, hlisted, rfl⟩, hnamesake⟩
    rw [recognized, h.lookupDomain_eq_some_iff.2 ⟨owner, howner, listed, hlisted, rfl⟩]
    simp only [h.lookupCompany_eq_some_iff.2 hnamesake]

variable (message) in
/-- **The assertion never fails.** -/
theorem recognized_ok (h : provider.Indexes lower companies) :
    ∃ found, provider.recognized lower message = .ok found := by
  rw [recognized]
  cases hdomain : provider.lookupDomain lower (points message.fromDomain) with
  | none => exact ⟨none, rfl⟩
  | some found =>
    obtain ⟨owner, howner, listed, hlisted, rfl⟩ := h.lookupDomain_eq_some_iff.1 hdomain
    obtain ⟨company, hcompany⟩ := h.lookupCompany_isSome howner.mem
    refine ⟨some (⟨listed, some owner.name⟩, company), ?_⟩
    simp only [hcompany]

end EntityContextProvider.Indexes

namespace EntityContextProvider

variable (lower) in
/-- What the provider says about a company is said about one that lists the sender's domain, up to
case. -/
def DescribesOwner (provider : EntityContextProvider) (str : Value → PyText)
    (message : NormalizedMessage) : Prop :=
  ∀ snippet rest, provider.getContext lower str message = .ok (snippet :: rest) →
    ∃ domain company, provider.recognized lower message = .ok (some (domain, company)) ∧
      snippet = ⟨domain.name, renderCompany company⟩ ∧
      company.Lists lower (lower (points message.fromDomain))

variable {str : Value → PyText} {message : NormalizedMessage}

theorem describesOwner_iff : provider.DescribesOwner lower str message ↔
    ∀ domain company, provider.recognized lower message = .ok (some (domain, company)) →
      company.Lists lower (lower (points message.fromDomain)) := by
  constructor
  · intro h domain company hrecognized
    obtain ⟨domain', company', hrecognized', -, hlists⟩ :=
      h ⟨domain.name, renderCompany company⟩ (provider.personSnippets lower str message)
        (by rw [getContext, hrecognized])
    rw [hrecognized] at hrecognized'
    cases hrecognized'
    exact hlists
  · intro h snippet rest hcontext
    rw [getContext] at hcontext
    cases hrecognized : provider.recognized lower message with
    | error e => rw [hrecognized] at hcontext; cases hcontext
    | ok found =>
      cases found with
      | none => rw [hrecognized] at hcontext; cases hcontext
      | some found =>
        rw [hrecognized] at hcontext
        cases hcontext
        exact ⟨found.1, found.2, rfl, rfl, h found.1 found.2 hrecognized⟩

/-- The snippets are there. -/
theorem Indexes.getContext_ok (h : provider.Indexes lower companies) :
    ∃ snippets, provider.getContext lower str message = .ok snippets := by
  rw [getContext]
  obtain ⟨found, hfound⟩ := h.recognized_ok message
  rw [hfound]
  cases found <;> exact ⟨_, rfl⟩

theorem Indexes.describesOwner_iff (h : provider.Indexes lower companies) :
    provider.DescribesOwner lower str message ↔
      ∀ owner namesake,
        LastWhere (fun company => company.Lists lower (lower (points message.fromDomain)))
          companies owner →
        LastNamesake lower companies owner namesake →
        namesake.Lists lower (lower (points message.fromDomain)) := by
  rw [EntityContextProvider.describesOwner_iff]
  constructor
  · intro hall owner namesake howner hnamesake
    obtain ⟨listed, hlisted⟩ := exists_lastWhere howner.holds
    exact hall ⟨listed, some owner.name⟩ namesake
      (h.recognized_some_iff.2 ⟨owner, howner, ⟨listed, hlisted, rfl⟩, hnamesake⟩)
  · intro hall domain company hrecognized
    obtain ⟨owner, howner, -, hnamesake⟩ := h.recognized_some_iff.1 hrecognized
    exact hall owner company howner hnamesake

end EntityContextProvider

variable (lower) in
/-- **Entity context describes the owner of the sender's domain exactly if the last company of the
owner's name lists the domain.**  It always describes someone or no one: the assertion never
fails. -/
theorem get_context_describes_owner_iff {data : EntityData}
    (h : EntityContextProvider.init lower data = .ok provider) :
    ∃ companies, data.companies.mapM Company.texts = .ok companies ∧
      ∀ (str : Value → PyText) (message : NormalizedMessage),
        (∃ snippets, provider.getContext lower str message = .ok snippets) ∧
        (provider.DescribesOwner lower str message ↔
          ∀ owner namesake,
            LastWhere (fun company => company.Lists lower (lower (points message.fromDomain)))
              companies owner →
            LastNamesake lower companies owner namesake →
            namesake.Lists lower (lower (points message.fromDomain))) := by
  obtain ⟨companies, htexts, hindexes⟩ := EntityContextProvider.init_indexes lower h
  exact ⟨companies, htexts, fun str message =>
    ⟨hindexes.getContext_ok, hindexes.describesOwner_iff⟩⟩

end

/-- `str.lower` on ASCII. -/
def asciiLower (text : PyText) : PyText :=
  text.map fun point => if 65 ≤ point ∧ point ≤ 90 then point + 32 else point

/-- A company with one domain. -/
def Company.operating (name domain : String) : Company Value :=
  ⟨.string (points name), [.string (points domain)], []⟩

/-- A message from this domain. -/
def messageFrom (domain : String) : NormalizedMessage :=
  { messageId := "M1", threadId := "T1", fromAddress := "jane@" ++ domain, fromDomain := domain,
    subject := "", bodyText := "" }

/-- A knowledge base with two companies. -/
def twoCompanies : EntityData :=
  ⟨[.operating "Gandi" "gandi.com", .operating "Namecheap" "namecheap.com"], [], []⟩

/-- Each of them is described for its domain. -/
theorem twoCompanies_described : ∃ provider,
    EntityContextProvider.init asciiLower twoCompanies = .ok provider ∧
      ∀ domain ∈ ["gandi.com", "namecheap.com"],
        provider.DescribesOwner asciiLower (fun _ => []) (messageFrom domain) := by
  obtain ⟨provider, hinit⟩ : ∃ provider,
      EntityContextProvider.init asciiLower twoCompanies = .ok provider := ⟨_, rfl⟩
  obtain ⟨companies, htexts, h⟩ := get_context_describes_owner_iff asciiLower hinit
  have hdistinct : (companies.map fun company => asciiLower company.name).Nodup := by
    obtain rfl := Except.ok.inj htexts
    decide
  refine ⟨provider, hinit, fun domain _ => (h _ _).2.2 fun owner namesake howner hnamesake => ?_⟩
  rw [hnamesake.eq_of_distinct hdistinct howner.mem]
  exact howner.holds

/-- Of two companies whose names differ in case, the second is described for the domain of the
first. -/
theorem acme_com_operated_by_other_acme : ∃ provider,
    EntityContextProvider.init asciiLower
        ⟨[.operating "Acme" "acme.com", .operating "ACME" "acme.org"], [], []⟩ = .ok provider ∧
      (provider.getContext asciiLower (fun _ => []) (messageFrom "acme.com")
        = .ok [⟨points "acme.com", points "ACME operates acme.org."⟩]) ∧
      ¬provider.DescribesOwner asciiLower (fun _ => []) (messageFrom "acme.com") := by
  refine ⟨_, rfl, rfl, fun h => ?_⟩
  obtain ⟨domain, company, hrecognized, -, hlists⟩ := h _ _ rfl
  cases hrecognized
  revert hlists
  decide

end Spork
