import Mathlib.Logic.Function.Basic
import SocialNetwork.Lib.Stream

/-!
# `SessionManager`

The two maps of the session manager, keyed by socket descriptor, as finite-support
functions: `none` is an absent key, `insert` and `erase` are point updates. The
mutex is left out (one thread).
-/

namespace SocialNetwork.Server

open SocialNetwork.Lib

structure SessionManager where
  sessions : Int → Option Text
  currentConversation : Int → Option Int

namespace SessionManager

/-- Both maps empty. -/
def empty : SessionManager := ⟨fun _ => none, fun _ => none⟩

def login (m : SessionManager) (clientSd : Int) (username : Text) : SessionManager :=
  { m with sessions := Function.update m.sessions clientSd (some username) }

def logout (m : SessionManager) (clientSd : Int) : SessionManager where
  sessions := Function.update m.sessions clientSd none
  currentConversation := Function.update m.currentConversation clientSd none

def isAuthenticated (m : SessionManager) (clientSd : Int) : Bool := (m.sessions clientSd).isSome

/-- The empty string for a socket without a session. -/
def getUsername (m : SessionManager) (clientSd : Int) : Text := (m.sessions clientSd).getD []

def openConversation (m : SessionManager) (clientSd conversationId : Int) : SessionManager :=
  { m with
    currentConversation := Function.update m.currentConversation clientSd (some conversationId) }

/-- `-1` for a socket without an open conversation. -/
def getCurrentConversation (m : SessionManager) (clientSd : Int) : Int :=
  (m.currentConversation clientSd).getD (-1)

variable (m : SessionManager) (sd : Int)

@[simp] theorem login_currentConversation (u : Text) :
    (m.login sd u).currentConversation = m.currentConversation := rfl

@[simp] theorem openConversation_sessions (c : Int) :
    (m.openConversation sd c).sessions = m.sessions := rfl

@[simp] theorem login_sessions_self (u : Text) : (m.login sd u).sessions sd = some u :=
  Function.update_self ..

@[simp] theorem logout_sessions_self : (m.logout sd).sessions sd = none :=
  Function.update_self ..

@[simp] theorem logout_currentConversation_self : (m.logout sd).currentConversation sd = none :=
  Function.update_self ..

@[simp] theorem openConversation_currentConversation_self (c : Int) :
    (m.openConversation sd c).currentConversation sd = some c :=
  Function.update_self ..

variable {m sd} {sd' : Int}

@[simp] theorem login_sessions_ne (h : sd' ≠ sd) (u : Text) :
    (m.login sd u).sessions sd' = m.sessions sd' :=
  Function.update_of_ne h ..

@[simp] theorem logout_sessions_ne (h : sd' ≠ sd) : (m.logout sd).sessions sd' = m.sessions sd' :=
  Function.update_of_ne h ..

@[simp] theorem logout_currentConversation_ne (h : sd' ≠ sd) :
    (m.logout sd).currentConversation sd' = m.currentConversation sd' :=
  Function.update_of_ne h ..

@[simp] theorem openConversation_currentConversation_ne (h : sd' ≠ sd) (c : Int) :
    (m.openConversation sd c).currentConversation sd' = m.currentConversation sd' :=
  Function.update_of_ne h ..

/-- What is open after a logout was open before, on another socket. -/
theorem currentConversation_of_logout {c : Int}
    (h : (m.logout sd).currentConversation sd' = some c) :
    sd' ≠ sd ∧ m.currentConversation sd' = some c := by
  have hne : sd' ≠ sd := by
    intro heq
    rw [heq, logout_currentConversation_self] at h
    cases h
  exact ⟨hne, (logout_currentConversation_ne hne) ▸ h⟩

/-- A session after a logout was there before, on another socket. -/
theorem sessions_of_logout {u : Text} (h : (m.logout sd).sessions sd' = some u) :
    sd' ≠ sd ∧ m.sessions sd' = some u := by
  have hne : sd' ≠ sd := by
    intro heq
    rw [heq, logout_sessions_self] at h
    cases h
  exact ⟨hne, (logout_sessions_ne hne) ▸ h⟩

/-- `isAuthenticated` and `getUsername` together read the session. -/
theorem sessions_eq_some {u : Text} (h : m.sessions sd = some u) :
    m.isAuthenticated sd = true ∧ m.getUsername sd = u := by
  unfold isAuthenticated getUsername
  rw [h]
  exact ⟨rfl, rfl⟩

theorem isAuthenticated_eq_false (h : m.sessions sd = none) : m.isAuthenticated sd = false := by
  unfold isAuthenticated
  rw [h]
  rfl

/-- Past the handlers' `if (!isAuthenticated(client_sd)) return …`. -/
theorem sessions_of_guard (h : ¬ (!m.isAuthenticated sd) = true) :
    m.sessions sd = some (m.getUsername sd) := by
  cases hs : m.sessions sd with
  | none => rw [isAuthenticated_eq_false hs] at h; exact absurd rfl h
  | some u => rw [(sessions_eq_some hs).2]

/-- An open conversation other than the sentinel is in the map. -/
theorem currentConversation_of_ne {c : Int} (h : m.getCurrentConversation sd = c) (hc : c ≠ -1) :
    m.currentConversation sd = some c := by
  unfold getCurrentConversation at h
  cases ho : m.currentConversation sd with
  | none => rw [ho] at h; exact absurd h.symm hc
  | some d => rw [ho] at h; exact congrArg some h

end SessionManager

end SocialNetwork.Server
