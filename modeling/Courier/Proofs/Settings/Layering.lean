import Courier.Proofs.Settings.Standard

/-! Settings laid over each other. What is known of a setting before it is converted is what its
variable of the environment says, and without that what the file says of it: each setting is read
from there alone, whichever loader goes by the rules. In a file a name that is a path speaks of the
name it starts with. -/
namespace Courier

inductive Setting where
  | capacity
  | inFlightLimit
  | sessionExpiry
  | keepAlive
  | clientId
  deriving DecidableEq

namespace Setting

def name : Setting → String
  | capacity => "message_capacity"
  | inFlightLimit => "parallel_publish_capacity"
  | sessionExpiry => "session_expiry_secs"
  | keepAlive => "keep_alive_secs"
  | clientId => "client_id"

def inEnvironment : Setting → String
  | capacity => "HERALD_MESSAGE_CAPACITY"
  | inFlightLimit => "HERALD_PARALLEL_PUBLISH_CAPACITY"
  | sessionExpiry => "HERALD_SESSION_EXPIRY_SECS"
  | keepAlive => "HERALD_KEEP_ALIVE_SECS"
  | clientId => "HERALD_CLIENT_ID"

def all : List Setting := [capacity, inFlightLimit, sessionExpiry, keepAlive, clientId]

def Suits (loader : Loader) (raw : Raw) : Setting → Prop
  | clientId => (loader.toText? raw).isSome
  | _ => (loader.toCount? raw).isSome

/-- A value comes of what is known: converted, or the default where nothing is known. -/
def Gives {α : Type} (raw : Option Raw) (convert : Raw → Option α) (default value : α) : Prop :=
  match raw with
  | none => value = default
  | some raw => convert raw = some value

def Holds (loader : Loader) (raw : Option Raw) (s : Settings) : Setting → Prop
  | capacity => Gives raw loader.toCount? 256 s.capacity
  | inFlightLimit => Gives raw loader.toCount? 20 s.inFlightLimit
  | sessionExpiry => Gives raw loader.toCount? 600 s.sessionExpirySecs
  | keepAlive => Gives raw loader.toCount? 60 s.keepAliveSecs
  | clientId => Gives raw (fun raw => (loader.toText? raw).map some) none s.clientId

def Agree (s t : Settings) : Setting → Prop
  | capacity => s.capacity = t.capacity
  | inFlightLimit => s.inFlightLimit = t.inFlightLimit
  | sessionExpiry => s.sessionExpirySecs = t.sessionExpirySecs
  | keepAlive => s.keepAliveSecs = t.keepAliveSecs
  | clientId => s.clientId = t.clientId

end Setting

/-- Each variable is there once, and of those that start as the settings do only theirs are. -/
def OnlySettings (environment : List (String × String)) : Prop :=
  (environment.map Prod.fst).Nodup ∧ ∀ v ∈ environment,
    "HERALD_".toList.map Raw.lower <+: v.1.toList.map Raw.lower →
      v.1 ∈ Setting.all.map Setting.inEnvironment

instance (environment : List (String × String)) : Decidable (OnlySettings environment) :=
  inferInstanceAs (Decidable (_ ∧ ∀ v ∈ environment, _ → _))

/-- What is known of a setting: what its variable looks like, else what there is below. -/
def Loader.known (loader : Loader) (environment : List (String × String))
    (below : Option (Table String Raw)) (n : Setting) : Option Raw :=
  match Table.find n.inEnvironment environment with
  | some text => some (loader.guess text)
  | none => loader.lookup below.toList n.name

/-- Each setting comes of what is known of it alone: of its variable, and where that is not set of
what the file says of it. -/
structure Loader.Layered (loader : Loader) (environment : List (String × String)) : Prop where
  /-- Settings load just as they come of what is known. -/
  loads_iff : ∀ file s, loader.load file environment = .ok s ↔
    ∃ below, loader.source? file = .ok below ∧
      ∀ n : Setting, n.Holds loader (loader.known environment below n) s
  /-- They load if the file is there and well formed and all that is known can be converted. -/
  succeeds_iff : ∀ file, (∃ s, loader.load file environment = .ok s) ↔
    ∃ below, loader.source? file = .ok below ∧ ∀ (n : Setting) (raw : Raw),
      loader.known environment below n = some raw → n.Suits loader raw
  /-- Where no path leads into a setting, the file says what its entry of that name says. -/
  of_entry : ∀ source (n : Setting), Table.find n.inEnvironment environment = none →
    ¬loader.LeadsInto source n.name →
      loader.known environment (some source) n = source.get? n.name
  /-- Where one does, something is known, and unless that is the value of the entry of that name
  it cannot be converted. -/
  of_path : ∀ source (n : Setting), Table.find n.inEnvironment environment = none →
    loader.LeadsInto source n.name → ∃ raw,
      loader.known environment (some source) n = some raw ∧
        (¬n.Suits loader raw ∨ source.get? n.name = some raw)
  of_nothing : ∀ n : Setting, Table.find n.inEnvironment environment = none →
    loader.known environment none n = none
  /-- What files say of settings of the environment does not count. -/
  hidden : ∀ file other below below', loader.source? file = .ok below →
    loader.source? other = .ok below' →
    (∀ n : Setting, Table.find n.inEnvironment environment = none →
      loader.known environment below n = loader.known environment below' n) →
    loader.load file environment = loader.load other environment
  /-- What is known of the other settings does not count. -/
  apart : ∀ file s below other t below' environment', OnlySettings environment' →
    loader.source? file = .ok below → loader.source? other = .ok below' →
    loader.load file environment = .ok s → loader.load other environment' = .ok t →
    ∀ n : Setting, loader.known environment below n = loader.known environment' below' n →
      n.Agree s t

namespace Setting

theorem mem_all (n : Setting) : n ∈ all := by
  cases n <;> decide

theorem name_injective {n m : Setting} (same : n.name = m.name) : n = m :=
  List.inj_on_of_nodup_map (l := all) (by decide +kernel) n.mem_all m.mem_all same

theorem isPlain_name (n : Setting) : IsPlain n.name := by
  cases n <;> decide +kernel

theorem inEnvironment_eq (n : Setting) : ∃ capitals, isSimple capitals ∧
    Raw.lowered capitals = n.name ∧ n.inEnvironment = "HERALD" ++ "_" ++ capitals := by
  cases n with
  | capacity => exact ⟨"MESSAGE_CAPACITY", by decide +kernel⟩
  | inFlightLimit => exact ⟨"PARALLEL_PUBLISH_CAPACITY", by decide +kernel⟩
  | sessionExpiry => exact ⟨"SESSION_EXPIRY_SECS", by decide +kernel⟩
  | keepAlive => exact ⟨"KEEP_ALIVE_SECS", by decide +kernel⟩
  | clientId => exact ⟨"CLIENT_ID", by decide +kernel⟩

end Setting

namespace Loader

variable {loader : Loader} {environment : List (String × String)} {v : String × String}
  {name : String} {below : Option (Table String Raw)} {source : Table String Raw}

theorem Names.inEnvironment (names : loader.Names) (n : Setting) :
    loader.nameUnder? "HERALD" n.inEnvironment = some n.name := by
  obtain ⟨capitals, simple, same, written⟩ := n.inEnvironment_eq
  rw [written, names.simple "HERALD" capitals (by decide +kernel) simple, same]

/-- Behind the start stand no names but those of settings. -/
theorem Names.eq_name (names : loader.Names) (only : OnlySettings environment)
    (member : v ∈ environment) (named : loader.nameUnder? "HERALD" v.1 = some name) :
    ∃ n : Setting, v.1 = n.inEnvironment ∧ name = n.name := by
  have begins := names.started "HERALD" v.1 (by decide +kernel) (Option.isSome_of_eq_some named)
  obtain ⟨n, _, same⟩ := List.mem_map.mp (only.2 v member begins)
  rw [← same, names.inEnvironment] at named
  exact ⟨n, same.symm, (Option.some.inj named).symm⟩

/-- Each setting has what its own variable looks like. -/
theorem Names.get?_fromEnvironment (names : loader.Names) (only : OnlySettings environment)
    (n : Setting) : (loader.fromEnvironment "HERALD" true environment).get? n.name =
      (Table.find n.inEnvironment environment).map loader.guess := by
  cases found : Table.find n.inEnvironment environment with
  | some text =>
    have member := (Table.find_eq_some_iff only.1 _ _).mp found
    refine names.given "HERALD" environment n.name _ member (names.inEnvironment n) ?_
    intro w other named
    obtain ⟨m, written, same⟩ := names.eq_name only other named
    rw [← Setting.name_injective same] at written
    exact List.inj_on_of_nodup_map only.1 other member written
  | none =>
    refine names.absent "HERALD" true environment n.name fun v member named => ?_
    obtain ⟨m, written, same⟩ := names.eq_name only member named
    rw [← Setting.name_injective same] at written
    rw [(Table.find_eq_some_iff only.1 _ v.2).mpr (written ▸ member)] at found
    contradiction

/-- No variable is a path into a setting. -/
theorem not_leadsInto_fromEnvironment (names : loader.Names) (lays : loader.Lays)
    (only : OnlySettings environment) (n : Setting) :
    ¬loader.LeadsInto (loader.fromEnvironment "HERALD" true environment) n.name := by
  rintro ⟨path, held, into⟩
  by_cases given : ∃ v ∈ environment, loader.nameUnder? "HERALD" v.1 = some path
  · obtain ⟨v, member, named⟩ := given
    obtain ⟨m, _, rfl⟩ := names.eq_name only member named
    rw [lays.plain _ m.isPlain_name] at into
    contradiction
  · have absent := names.absent "HERALD" true environment path
      fun v member named => given ⟨v, member, named⟩
    rw [Table.contains, absent] at held
    contradiction

theorem Documented.lookup_eq_known (documented : loader.Documented)
    (only : OnlySettings environment) (n : Setting) :
    loader.lookup (below.toList ++ [loader.fromEnvironment "HERALD" true environment]) n.name =
      loader.known environment below n := by
  obtain ⟨names, lays, guesses, _⟩ := documented
  have held := names.get?_fromEnvironment only n
  have unled := not_leadsInto_fromEnvironment names lays only n
  unfold known
  cases found : Table.find n.inEnvironment environment with
  | some text =>
    rw [found] at held
    exact lays.placed _ _ _ _ (lays.plain _ n.isPlain_name) held unled
      (.inr (guesses.isCompound_guess text))
  | none =>
    rw [found] at held
    exact lays.passed _ _ _ held unled

theorem known_of_unset {n : Setting} (unset : Table.find n.inEnvironment environment = none) :
    loader.known environment below n = loader.lookup below.toList n.name := by
  rw [known, unset]

/-- A single source gives what its entries say, where no path leads into that. -/
theorem Lays.lookup_singleton (lays : loader.Lays) (plain : IsPlain name)
    (unled : ¬loader.LeadsInto source name) :
    loader.lookup [source] name = source.get? name := by
  cases held : source.get? name with
  | some raw =>
    exact lays.placed [] _ _ _ (lays.plain _ plain) held unled (.inl (lays.bare _))
  | none => exact (lays.passed [] _ _ held unled).trans (lays.bare _)

/-- Tables and arrays suit no setting. -/
theorem Converts.not_suits (converts : loader.Converts) {n : Setting} {raw : Raw}
    (compound : raw.isCompound = true) : ¬n.Suits loader raw := by
  obtain ⟨no_text, no_count⟩ := converts.compound raw compound
  intro suits
  cases n with
  | clientId => exact nomatch suits.symm.trans (congrArg Option.isSome no_text)
  | _ => exact nomatch suits.symm.trans (congrArg Option.isSome no_count)

end Loader

namespace Setting

variable {loader : Loader} {α : Type} {raw : Option Raw}

theorem exists_gives_iff {convert : Raw → Option α} {default : α} :
    (∃ value, Gives raw convert default value) ↔
      ∀ known, raw = some known → (convert known).isSome := by
  cases raw with
  | none => exact ⟨fun _ => nofun, fun _ => ⟨default, rfl⟩⟩
  | some known =>
    constructor
    · rintro ⟨value, converted⟩ _ ⟨⟩
      exact Option.isSome_of_eq_some converted
    · intro suits
      exact Option.isSome_iff_exists.mp (suits known rfl)

theorem gives_unique {convert : Raw → Option α} {default a b : α}
    (one : Gives raw convert default a) (other : Gives raw convert default b) : a = b := by
  cases raw with
  | none => exact one.trans other.symm
  | some known => exact Option.some.inj (one.symm.trans other)

/-- Settings that come of all that is known exist just if each of them can be converted. -/
theorem exists_holds_iff {known : Setting → Option Raw} :
    (∃ s, ∀ n : Setting, n.Holds loader (known n) s) ↔
      ∀ n raw, known n = some raw → n.Suits loader raw := by
  constructor
  · rintro ⟨s, holds⟩ n
    cases n with
    | clientId =>
      intro raw found
      have converted := exists_gives_iff.mp ⟨_, holds .clientId⟩ raw found
      rwa [Option.isSome_map] at converted
    | capacity => exact exists_gives_iff.mp ⟨_, holds .capacity⟩
    | inFlightLimit => exact exists_gives_iff.mp ⟨_, holds .inFlightLimit⟩
    | sessionExpiry => exact exists_gives_iff.mp ⟨_, holds .sessionExpiry⟩
    | keepAlive => exact exists_gives_iff.mp ⟨_, holds .keepAlive⟩
  · intro suits
    obtain ⟨capacity, holds₁⟩ := exists_gives_iff.mpr (suits .capacity)
    obtain ⟨inFlightLimit, holds₂⟩ := exists_gives_iff.mpr (suits .inFlightLimit)
    obtain ⟨sessionExpirySecs, holds₃⟩ := exists_gives_iff.mpr (suits .sessionExpiry)
    obtain ⟨keepAliveSecs, holds₄⟩ := exists_gives_iff.mpr (suits .keepAlive)
    have named : ∀ raw, known .clientId = some raw → ((loader.toText? raw).map some).isSome := by
      intro raw found
      rw [Option.isSome_map]
      exact suits .clientId raw found
    obtain ⟨clientId, holds₅⟩ := exists_gives_iff.mpr named
    refine ⟨{ capacity, inFlightLimit, sessionExpirySecs, keepAliveSecs, clientId }, fun n => ?_⟩
    cases n
    exacts [holds₁, holds₂, holds₃, holds₄, holds₅]

/-- What is known of a setting leaves it one value. -/
theorem agree_of_holds {n : Setting} {s t : Settings} (here : n.Holds loader raw s)
    (there : n.Holds loader raw t) : n.Agree s t := by
  cases n <;> exact gives_unique here there

end Setting

namespace Settings

variable {α : Type} {loader : Loader} {said said' : String → Option Raw} {s : Settings}
  {name : String} {default value : α} {convert : Raw → Option α}

theorem bind_eq_ok_iff {ε β : Type} {x : Except ε α} {f : α → Except ε β} {b : β} :
    (x >>= f) = .ok b ↔ ∃ a, x = .ok a ∧ f a = .ok b := by
  cases x with
  | error e => exact ⟨nofun, nofun⟩
  | ok a =>
    constructor
    · exact fun done => ⟨a, rfl, done⟩
    · rintro ⟨_, ⟨⟩, done⟩
      exact done

theorem field_eq_ok_iff :
    field said name default convert = .ok value ↔
      Setting.Gives (said name) convert default value := by
  unfold field
  cases said name with
  | none => exact ⟨fun same => (Except.ok.inj same).symm, fun same => congrArg _ same.symm⟩
  | some raw =>
    dsimp only [Setting.Gives]
    cases convert raw with
    | none => exact ⟨nofun, nofun⟩
    | some _ =>
      constructor
      · exact fun same => congrArg some (Except.ok.inj same)
      · exact fun same => congrArg Except.ok (Option.some.inj same)

theorem field_congr (same : said name = said' name) :
    field said name default convert = field said' name default convert := by
  unfold field
  rw [same]

theorem ofValues_eq_ok_iff :
    ofValues loader said = .ok s ↔ ∀ n : Setting, n.Holds loader (said n.name) s := by
  constructor
  · intro made
    obtain ⟨_, holds₁, made⟩ := bind_eq_ok_iff.mp made
    obtain ⟨_, holds₂, made⟩ := bind_eq_ok_iff.mp made
    obtain ⟨_, holds₃, made⟩ := bind_eq_ok_iff.mp made
    obtain ⟨_, holds₄, made⟩ := bind_eq_ok_iff.mp made
    obtain ⟨_, holds₅, made⟩ := bind_eq_ok_iff.mp made
    cases made
    intro n
    cases n
    exacts [field_eq_ok_iff.mp holds₁, field_eq_ok_iff.mp holds₂, field_eq_ok_iff.mp holds₃,
      field_eq_ok_iff.mp holds₄, field_eq_ok_iff.mp holds₅]
  · intro holds
    refine bind_eq_ok_iff.mpr ⟨_, field_eq_ok_iff.mpr (holds .capacity), ?_⟩
    refine bind_eq_ok_iff.mpr ⟨_, field_eq_ok_iff.mpr (holds .inFlightLimit), ?_⟩
    refine bind_eq_ok_iff.mpr ⟨_, field_eq_ok_iff.mpr (holds .sessionExpiry), ?_⟩
    refine bind_eq_ok_iff.mpr ⟨_, field_eq_ok_iff.mpr (holds .keepAlive), ?_⟩
    exact bind_eq_ok_iff.mpr ⟨_, field_eq_ok_iff.mpr (holds .clientId), rfl⟩

theorem ofValues_congr (same : ∀ n : Setting, said n.name = said' n.name) :
    ofValues loader said = ofValues loader said' := by
  unfold ofValues
  refine congrArg₂ bind (field_congr (same .capacity)) (funext fun _ => ?_)
  refine congrArg₂ bind (field_congr (same .inFlightLimit)) (funext fun _ => ?_)
  refine congrArg₂ bind (field_congr (same .sessionExpiry)) (funext fun _ => ?_)
  refine congrArg₂ bind (field_congr (same .keepAlive)) (funext fun _ => ?_)
  exact congrArg₂ bind (field_congr (same .clientId)) rfl

variable {file other : SettingsFile} {below below' : Option (Table String Raw)}
  {environment : List (String × String)}

theorem load_eq_ok_iff (documented : loader.Documented) (only : OnlySettings environment) :
    loader.load file environment = .ok s ↔ ∃ below, loader.source? file = .ok below ∧
      ∀ n : Setting, n.Holds loader (loader.known environment below n) s := by
  refine bind_eq_ok_iff.trans (exists_congr fun below => and_congr_right fun _ => ?_)
  refine ofValues_eq_ok_iff.trans (forall_congr' fun n => ?_)
  rw [documented.lookup_eq_known only]

/-- Files that say the same of all that the environment says nothing of come to the same. -/
theorem load_congr (documented : loader.Documented) (only : OnlySettings environment)
    (read : loader.source? file = .ok below) (otherwise : loader.source? other = .ok below')
    (same : ∀ n : Setting, Table.find n.inEnvironment environment = none →
      loader.known environment below n = loader.known environment below' n) :
    loader.load file environment = loader.load other environment := by
  unfold Loader.load
  rw [read, otherwise]
  refine ofValues_congr fun n => ?_
  rw [documented.lookup_eq_known only, documented.lookup_eq_known only]
  cases found : Table.find n.inEnvironment environment with
  | none => exact same n found
  | some text => rw [Loader.known, Loader.known, found]

/-- Whichever loader goes by the rules, and whatever the file and the variables of the settings
hold. -/
theorem settings_layered (documented : loader.Documented) (only : OnlySettings environment) :
    loader.Layered environment where
  loads_iff file s := load_eq_ok_iff documented only
  succeeds_iff file := by
    constructor
    · rintro ⟨s, loaded⟩
      obtain ⟨below, read, holds⟩ := (load_eq_ok_iff documented only).mp loaded
      exact ⟨below, read, Setting.exists_holds_iff.mp ⟨s, holds⟩⟩
    · rintro ⟨below, read, suits⟩
      obtain ⟨s, holds⟩ := Setting.exists_holds_iff.mpr suits
      exact ⟨s, (load_eq_ok_iff documented only).mpr ⟨below, read, holds⟩⟩
  of_entry source n unset unled :=
    (Loader.known_of_unset unset).trans (documented.lays.lookup_singleton n.isPlain_name unled)
  of_path source n unset led := by
    rw [Loader.known_of_unset unset]
    obtain ⟨raw, found, own⟩ :=
      documented.lays.led [] source n.name (documented.lays.plain _ n.isPlain_name) led
    exact ⟨raw, found, own.imp_left documented.converts.not_suits⟩
  of_nothing n unset := (Loader.known_of_unset unset).trans (documented.lays.bare _)
  hidden file other below below' := load_congr documented only
  apart file s below other t below' environment' only' read otherwise loaded loaded' n same := by
    obtain ⟨_, again, holds⟩ := (load_eq_ok_iff documented only).mp loaded
    obtain ⟨_, again', holds'⟩ := (load_eq_ok_iff documented only').mp loaded'
    cases read.symm.trans again
    cases otherwise.symm.trans again'
    exact Setting.agree_of_holds (holds n) (same ▸ holds' n)

/-- A negative count, a path and a table lie hidden under variables; the file alone is refused. -/
theorem settings_layered_hidden :
    ∃ (file : SettingsFile) (environment : List (String × String)),
      OnlySettings environment ∧
      load file environment = .ok
        { capacity := 1, inFlightLimit := 3, keepAliveSecs := 7, clientId := some "x" } ∧
      (∃ below, Loader.standard.source? file = .ok below ∧ ∀ (n : Setting) (raw : Raw),
        Loader.standard.known environment below n = some raw → n.Suits Loader.standard raw) ∧
      load file [] = .error (.unsuitable "parallel_publish_capacity") := by
  obtain ⟨file, text⟩ : ∃ file, file = SettingsFile.holding ("keep_alive_secs = -5\n" ++
    "\"client_id.a\" = 1\nmessage_capacity = true\n[parallel_publish_capacity]\n") := ⟨_, rfl⟩
  obtain ⟨environment, set⟩ : ∃ environment, environment = [("PATH", "/bin"),
    ("HERALD_KEEP_ALIVE_SECS", "7"), ("HERALD_CLIENT_ID", "x"),
    ("HERALD_PARALLEL_PUBLISH_CAPACITY", "3")] := ⟨_, rfl⟩
  have only : OnlySettings environment := by
    rw [set]
    decide +kernel
  have loaded : load file environment = .ok
      { capacity := 1, inFlightLimit := 3, keepAliveSecs := 7, clientId := some "x" } := by
    rw [text, set]
    decide +kernel
  have refused : load file [] = .error (.unsuitable "parallel_publish_capacity") := by
    rw [text]
    decide +kernel
  have layered := settings_layered Loader.documented_standard only
  exact ⟨file, environment, only, loaded, (layered.succeeds_iff file).mp ⟨_, loaded⟩, refused⟩

/-- A path that leads into a setting counts as that setting's, though no entry has its name. -/
theorem path_name_counts :
    ¬∀ (loader : Loader) (file : SettingsFile) (environment : List (String × String)),
      loader.Documented → OnlySettings environment →
      ((∃ s, loader.load file environment = .ok s) ↔
        ∃ below, loader.source? file = .ok below ∧ ∀ (n : Setting) (raw : Raw),
          ((Table.find n.inEnvironment environment).map loader.guess).or
            (below.bind (Table.get? · n.name)) = some raw → n.Suits loader raw) := by
  intro claim
  obtain ⟨text, written⟩ : ∃ text, text = "\"keep_alive_secs[0]\" = 1" := ⟨_, rfl⟩
  have entries : (Loader.standard.read? text).map Table.entries =
      some [("keep_alive_secs[0]", .integer 1)] := by
    rw [written]
    decide +kernel
  obtain ⟨source, read, entries⟩ := Option.map_eq_some_iff.mp entries
  have unknown : ∀ n ∈ Setting.all,
      Table.find n.name [("keep_alive_secs[0]", Raw.integer 1)] = none := by
    decide +kernel
  have suits : ∀ (n : Setting) (raw : Raw),
      ((Table.find n.inEnvironment []).map Loader.standard.guess).or
        ((some source).bind (Table.get? · n.name)) = some raw → n.Suits Loader.standard raw := by
    intro n raw found
    have absent : source.get? n.name = none := by
      rw [Table.get?, entries, unknown n n.mem_all]
    exact nomatch found.symm.trans absent
  have sourced : Loader.standard.source? (.holding text) = .ok (some source) := by
    rw [Loader.source?, read]
  have refused : Loader.standard.load (.holding text) [] =
      .error (.unsuitable "keep_alive_secs") := by
    rw [written]
    decide +kernel
  obtain ⟨s, loaded⟩ := (claim Loader.standard (.holding text) [] Loader.documented_standard
    (by decide)).mpr ⟨_, sourced, suits⟩
  exact nomatch refused.symm.trans loaded

end Settings

end Courier
