import Spork.Dicts
import Spork.JsonFile
import Spork.Rules.Schema

/-!
# The entity knowledge base

`core/context/clients/entities`: a JSON file of companies, services and people, and the provider
that looks senders up in it.

The loader keeps whatever JSON stands in a field.  The constructor calls `.lower()` on names,
domains and services, which only a `str` has, so the companies behind its indices consist of texts
(`Company.texts`).  What `str.lower` makes of a text and how `str` writes a value are tables of
Python's that nothing depends on, so they are parameters.
-/

set_option autoImplicit false

namespace Spork

open JsonReader (Value points)
open Loading

/-! ## Records -/

/-- `Domain`. -/
structure Domain where
  name : PyText
  company : Option PyText

/-- `Company`, with fields of this type. -/
structure Company (α : Type) where
  name : α
  domains : List α
  services : List α

/-- `Service`. -/
structure Service (α : Type) where
  name : α
  category : Value
  providedBy : List PyText

/-- `Person`. -/
structure Person where
  name : Value
  email : Value
  company : Value

/-- `EntityData`. -/
structure EntityData where
  companies : List (Company Value)
  serviceMetadata : List (Service Value)
  people : List Person

/-! ## Loading -/

/-- `EntityDataLoadError`. -/
inductive EntityDataLoadError where
  | notFound
  | invalidJson
  /-- The top level is a value of this type. -/
  | notAnObject (type : String)
  | entryNotAnObject (sectionName : String) (index : Nat) (type : String)
  | missingField (sectionName : String) (index : Nat) (field : String)
  deriving DecidableEq, Repr

/-- A value that has a `lower` method. -/
def asText : Value → Loaded EntityDataLoadError PyText
  | .string text => .ok text
  | _ => .error (.escaped (.other "AttributeError"))

/-- A company all of whose texts are texts. -/
def Company.texts (company : Company Value) : Loaded EntityDataLoadError (Company PyText) := do
  let name ← asText company.name
  let domains ← company.domains.mapM asText
  let services ← company.services.mapM asText
  .ok ⟨name, domains, services⟩

/-- A number that `bool` takes for `False`: what rounds to zero. -/
def isZero (spelling : List Char) : Bool :=
  match floatValue (String.ofList (spelling.map fun c => if c = 'E' then 'e' else c)) with
  | none => false
  | some q => decide (|q| ≤ 1 / 2 ^ 1075)

/-- `bool(value)` -/
def truthy : Value → Bool
  | .null => false
  | .bool b => b
  | .number spelling => !isZero spelling
  | .string text => !text.isEmpty
  | .array items => !items.isEmpty
  | .object members => !members.isEmpty

/-- `EntityContextProvider`, its dicts as the assignments they are made by. -/
structure EntityContextProvider where
  companies : List (PyText × Company PyText)
  domains : List (PyText × Domain)
  services : List (PyText × Service PyText)
  peopleByEmail : List (PyText × Person)
  peopleByName : List (PyText × Person)

section

variable (lower : PyText → PyText)

/-- `self._services`. -/
def serviceIndex (companies : List (Company PyText)) (metadata : List (PyText × Value)) :
    List (PyText × Service PyText) :=
  let listed := companies.flatMap fun company =>
    company.services.map fun service => (lower service, service, company.name)
  -- `setdefault`: the first name under a key stays
  let displayNames := (listed.map fun entry => (entry.1, entry.2.1)) ++
    metadata.map fun entry => (lower entry.1, entry.1)
  let categories := metadata.map fun entry => (lower entry.1, entry.2)
  (displayNames.map Prod.fst).eraseDups.map fun key =>
    (key, ⟨(displayNames.lookup key).getD key, (Dicts.get categories key).getD .null,
      (listed.filter fun entry => entry.1 = key).map fun entry => entry.2.2⟩)

/-- The entry of a person in the index of addresses. -/
def emailKey (person : Person) : Loaded EntityDataLoadError (Option (PyText × Person)) :=
  if truthy person.email then do
    let email ← asText person.email
    .ok (some (lower email, person))
  else .ok none

/-- The entry of a person in the index of names. -/
def nameKey (person : Person) : Loaded EntityDataLoadError (PyText × Person) := do
  let name ← asText person.name
  .ok (lower name, person)

/-- The name and the category of a service. -/
def Service.nameAndCategory (service : Service Value) :
    Loaded EntityDataLoadError (PyText × Value) := do
  let name ← asText service.name
  .ok (name, service.category)

/-- The indices over what was loaded. -/
def EntityContextProvider.init (data : EntityData) :
    Loaded EntityDataLoadError EntityContextProvider := do
  let companies ← data.companies.mapM Company.texts
  let metadata ← data.serviceMetadata.mapM Service.nameAndCategory
  let peopleByEmail ← data.people.mapM (emailKey lower)
  let peopleByName ← data.people.mapM (nameKey lower)
  .ok
    { companies := companies.map fun company => (lower company.name, company)
      domains := companies.flatMap fun company =>
        company.domains.map fun name => (lower name, ⟨name, some company.name⟩)
      services := serviceIndex lower companies metadata
      peopleByEmail := peopleByEmail.reduceOption
      peopleByName }

namespace EntityContextProvider

variable (self : EntityContextProvider)

/-- `lookup_domain`. -/
def lookupDomain (domain : PyText) : Option Domain := Dicts.get self.domains (lower domain)

/-- `lookup_company`. -/
def lookupCompany (name : PyText) : Option (Company PyText) :=
  Dicts.get self.companies (lower name)

/-- `lookup_person`. -/
def lookupPerson (identifier : PyText) : Option Person :=
  (Dicts.get self.peopleByEmail (lower identifier)).or
    (Dicts.get self.peopleByName (lower identifier))

end EntityContextProvider

/-! ## Context -/

/-- `ContextSnippet`, its texts as code points. -/
structure EntitySnippet where
  source : PyText
  text : PyText
  deriving DecidableEq

/-- `', '.join(texts)` -/
def commaJoin (texts : List PyText) : PyText := (points ", ").intercalate texts

/-- `_render_company`. -/
def renderCompany (company : Company PyText) : PyText :=
  company.name ++
    (if company.domains = [] then [] else points " operates " ++ commaJoin company.domains) ++
    (if company.services = [] then [] else points " and provides " ++ commaJoin company.services) ++
    points "."

/-- `_render_person`. -/
def renderPerson (str : Value → PyText) (person : Person) : PyText :=
  str person.name ++ points " is affiliated with " ++ str person.company ++ points "."

namespace EntityContextProvider

variable (self : EntityContextProvider)

/-- The domain of a message and the company that `get_context` describes for it. -/
def recognized (message : NormalizedMessage) :
    Except Exn (Option (Domain × Company PyText)) :=
  match self.lookupDomain lower (points message.fromDomain) with
  | none => .ok none
  | some domain =>
    match domain.company with
    | none => .ok none
    | some name =>
      match self.lookupCompany lower name with
      | none =>
        let name := pyRepr (String.ofList (domain.name.map Char.ofNat))
        .error ⟨.other "AssertionError", "domain " ++ name ++ " names an untracked company"⟩
      | some company => .ok (some (domain, company))

/-- The snippet about the person who wrote the message. -/
def personSnippets (str : Value → PyText) (message : NormalizedMessage) : List EntitySnippet :=
  match self.lookupPerson lower (points message.fromAddress) with
  | none => []
  | some person =>
    match person.company with
    | .null => []
    | _ => [⟨points message.fromAddress, renderPerson str person⟩]

/-- `get_context`. -/
def getContext (str : Value → PyText) (message : NormalizedMessage) :
    Except Exn (List EntitySnippet) :=
  match self.recognized lower message with
  | .error e => .error e
  | .ok none => .ok []
  | .ok (some (domain, company)) =>
    .ok (⟨domain.name, renderCompany company⟩ :: self.personSnippets lower str message)

end EntityContextProvider

end

end Spork
