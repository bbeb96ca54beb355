import Courier.Proofs.Settings.Layering
import Courier.Proofs.Settings.Spelling

/-! The client id that a variable of the environment gives. What the variable holds is taken for a
truth value or a number where it looks like one, and the client id is the text of that: what the
variable holds only where this is spelled as it is printed. -/
namespace Courier.Settings

variable {loader : Loader} {file : SettingsFile} {environment environment' : List (String × String)}
  {s id : String} {t : Settings}

/-- Whatever a file says, the client id is the text of what the variable looks like. -/
theorem clientId_of_load (documented : loader.Documented) (only : OnlySettings environment)
    (given : Table.find Setting.clientId.inEnvironment environment = some s)
    (text : loader.toText? (loader.guess s) = some id)
    (loaded : loader.load file environment = .ok t) : t.clientId = some id := by
  obtain ⟨below, _, holds⟩ := (load_eq_ok_iff documented only).mp loaded
  have named : Setting.clientId.Holds loader (some (loader.guess s)) t := by
    have named := holds .clientId
    rwa [Loader.known, given] at named
  have converted : (loader.toText? (loader.guess s)).map some = some t.clientId := named
  rw [text] at converted
  exact (Option.some.inj converted).symm

/-- Settings that load with another client id, or with none, load with this one, and nothing else
of them changes. -/
theorem load_clientId (documented : loader.Documented) (only : OnlySettings environment)
    (only' : OnlySettings environment')
    (given : Table.find Setting.clientId.inEnvironment environment = some s)
    (text : loader.toText? (loader.guess s) = some id)
    (same : ∀ n : Setting, n ≠ .clientId →
      Table.find n.inEnvironment environment' = Table.find n.inEnvironment environment)
    (loaded : loader.load file environment' = .ok t) :
    loader.load file environment = .ok { t with clientId := some id } := by
  obtain ⟨below, read, holds⟩ := (load_eq_ok_iff documented only').mp loaded
  refine (load_eq_ok_iff documented only).mpr ⟨below, read, fun n => ?_⟩
  by_cases here : n = .clientId
  · rw [here, Loader.known, given]
    show (loader.toText? (loader.guess s)).map some = some (some id)
    rw [text, Option.map_some]
  · have held := holds n
    rw [Loader.known, same n here, ← Loader.known] at held
    cases n with
    | clientId => exact absurd rfl here
    | _ => exact held

/-- The client id from the environment is what its variable holds exactly where that looks like no
truth value or number, or like one in the spelling it is printed in. Otherwise the id is respelled,
and what it becomes is printed that way, a zero with a sign set aside. Whatever the variable holds,
the settings load with it as they load without it or with another, and the options carry the id. -/
theorem client_id_kept_iff (documented : loader.Documented) (only : OnlySettings environment)
    (given : Table.find Setting.clientId.inEnvironment environment = some s) :
    ∃ id, loader.toText? (loader.guess s) = some id ∧ (id = s ↔ Raw.Verbatim s) ∧
      (Raw.Verbatim id ∨ id = "-0") ∧
      (∀ file t, loader.load file environment = .ok t →
        t.clientId = some id ∧ ∀ token, (Options.ofSettings t token).clientId = id) ∧
      ∀ file environment' t, OnlySettings environment' →
        (∀ n : Setting, n ≠ .clientId →
          Table.find n.inEnvironment environment' = Table.find n.inEnvironment environment) →
        loader.load file environment' = .ok t →
        loader.load file environment = .ok { t with clientId := some id } := by
  obtain ⟨id, text⟩ := Loader.exists_toText?_guess documented.guesses documented.converts s
  refine ⟨id, text, ?_, ?_, fun file t loaded => ?_, fun file environment' t only' same loaded =>
    load_clientId documented only only' given text same loaded⟩
  · rw [← Loader.toText?_guess_eq_self_iff documented.guesses documented.converts, text,
      Option.some_inj]
  · exact Loader.verbatim_of_toText? documented.guesses documented.converts text
  · have named := clientId_of_load documented only given text loaded
    exact ⟨named, fun token => by rw [Options.ofSettings, named]; rfl⟩

/-- A sign and a zero too many: the id is respelled, and nothing else of the settings is touched. -/
theorem client_id_kept_iff_respelled :
    ¬ Raw.Verbatim "+1.50" ∧ Raw.Verbatim "1.5" ∧
      load .none [("HERALD_KEEP_ALIVE_SECS", "30"), ("HERALD_CLIENT_ID", "+1.50")] =
        .ok { keepAliveSecs := 30, clientId := some "1.5" } := by
  have only : OnlySettings
      [("HERALD_KEEP_ALIVE_SECS", "30"), ("HERALD_CLIENT_ID", "+1.50")] := by
    decide +kernel
  obtain ⟨id, text, kept, printed, _, loads⟩ :=
    client_id_kept_iff Loader.documented_standard (s := "+1.50") only (by decide +kernel)
  have respelled : id = "1.5" :=
    Option.some.inj (text.symm.trans (by decide +kernel))
  subst respelled
  refine ⟨fun verbatim => absurd (kept.mpr verbatim) (by decide),
    printed.resolve_right (by decide), ?_⟩
  refine loads .none [("HERALD_KEEP_ALIVE_SECS", "30")] { keepAliveSecs := 30 }
    (by decide +kernel) (fun n other => ?_) (by decide +kernel)
  cases n with
  | clientId => exact absurd rfl other
  | _ => decide +kernel

/-- With neither a file nor variables the settings are the defaults. -/
theorem load_nothing (documented : loader.Documented) : loader.load .none [] = .ok {} := by
  refine (load_eq_ok_iff documented (by decide)).mpr ⟨none, rfl, fun n => ?_⟩
  have nothing : loader.known [] none n = none := documented.lays.bare n.name
  rw [nothing]
  cases n <;> rfl

/-- Whatever loads the settings, a client id that looks like a number is not used as it is
written. -/
theorem client_id_respelled :
    ¬∃ loader : Loader, loader.Documented ∧
      ∀ (s : String) (file : SettingsFile) (environment : List (String × String)) (t : Settings),
        OnlySettings environment →
        Table.find Setting.clientId.inEnvironment environment = some s →
        loader.load file environment = .ok t →
        t.clientId = some s ∧ ∀ token, (Options.ofSettings t token).clientId = s := by
  rintro ⟨loader, documented, kept⟩
  have only : OnlySettings [("HERALD_CLIENT_ID", "007")] := by decide +kernel
  have given : Table.find Setting.clientId.inEnvironment [("HERALD_CLIENT_ID", "007")] =
      some "007" := by
    decide +kernel
  have seven : loader.guess "007" = .integer 7 :=
    documented.guesses.integer "007" 7 (by decide +kernel) (by decide +kernel)
  have text : loader.toText? (loader.guess "007") = some "7" := by
    rw [seven]
    exact documented.converts.integer 7
  have loaded := load_clientId documented only (by decide) given text (fun n other => by
    cases n with
    | clientId => exact absurd rfl other
    | _ => decide +kernel) (load_nothing documented)
  exact absurd (kept "007" .none _ _ only given loaded).1 (by decide)

end Courier.Settings
