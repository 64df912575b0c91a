import ChronosLedger.ArchiveValues

namespace ChronosLedger.Portability

abbrev Row := String → Cell

structure ForeignKey where
  columns : List String
  target : String
  targetColumns : List String
  deriving DecidableEq, Repr

-- A table with its constraints. Every primary key is the id column; `checks`
-- are about one row and `apart` about two, beside the unique columns.
structure Table where
  name : String
  columns : List Column
  foreignKeys : List ForeignKey
  uniques : List (List String)
  checks : List (Row → Bool)
  apart : Dialect → Row → Row → Bool

def institutionalRole : Kind := .enumeration ["ORG_ADMIN","UNIT_ADMIN","STAFF","MEMBER"]
def dynamicState : Kind :=
  .enumeration ["SCHEDULED","ON_LEAVE","PROXY_SUBSTITUTE","LUNCH","INTERNAL_MEETING","ADHOC_EVENT"]
def verificationMetric : Kind := .enumeration ["PRESENT","ABSENT","LATE"]
def executionMode : Kind := .enumeration ["PHYSICAL","ONLINE_STREAM"]
def accessReadiness : Kind := .enumeration ["OPEN_AD_HOC","BUSY","CRITICAL_DO_NOT_DISTURB","VERY_FREE"]
def logVerificationState : Kind := .enumeration ["PENDING_VERIFICATION","VERIFIED_APPROVED","VERIFIED_DENIED"]
def resourceMode : Kind := .enumeration ["EXCLUSIVE","POOLED","SHARED"]
def reservationStatus : Kind := .enumeration ["HELD","CANCELLED"]
def requirementOwner : Kind := .enumeration ["RESOURCE","ACTIVITY"]
def requirementEnforcement : Kind := .enumeration ["REQUIRED","ADVISORY"]

def required (name : String) (kind : Kind) : Column := ⟨name,kind,false⟩
def optional (name : String) (kind : Kind) : Column := ⟨name,kind,true⟩

def organizationId : Column := required "organization_id" (.string 50)

def refersTo (column target : String) : ForeignKey := ⟨[column],target,["id"]⟩
def ofOrganization : ForeignKey := refersTo "organization_id" "organizations"
def ofClass (column : String) : ForeignKey := ⟨["organization_id",column],"resource_classes",["organization_id","code"]⟩

def noneApart (_ : Dialect) (_ _ : Row) : Bool := true

def organizations : Table where
  name := "organizations"
  columns := [required "id" (.string 50),required "name" (.string 120),required "created_at" .dateTime,
    required "default_requirement_enforcement" requirementEnforcement]
  foreignKeys := []
  uniques := []
  checks := []
  apart := noneApart

def auditRecords : Table where
  name := "audit_records"
  columns := [required "id" .bigInteger,required "at" .dateTime,optional "actor_id" (.string 50),optional "api_key_id" .integer,
    optional "acting_for_user_id" (.string 50),required "method" (.string 10),required "path" (.string 500),
    required "status_code" .integer,optional "organization_id" (.string 50)]
  foreignKeys := [ofOrganization]
  uniques := []
  checks := []
  apart := noneApart

def changeMarkers : Table where
  name := "change_markers"
  columns := [required "id" .bigInteger,required "entity_kind" (.string 20),required "entity_id" .integer,
    required "change_kind" (.string 10),required "at" .dateTime,organizationId]
  foreignKeys := [ofOrganization]
  uniques := []
  checks := []
  apart := noneApart

def federatedIssuers : Table where
  name := "federated_issuers"
  columns := [required "id" .integer,required "issuer" (.string 255),required "display_name" (.string 100),
    required "audience" (.string 255),required "enabled" .boolean,optional "created_at" .dateTime,organizationId]
  foreignKeys := [ofOrganization]
  uniques := [["issuer"]]
  checks := []
  apart := noneApart

def planningCycles : Table where
  name := "planning_cycles"
  columns := [required "id" .integer,required "cycle_label" (.string 50),required "date_bounds_start" .date,
    required "date_bounds_end" .date,required "operational_status" .boolean,organizationId]
  foreignKeys := [ofOrganization]
  uniques := []
  checks := []
  apart := noneApart

def resourceClasses : Table where
  name := "resource_classes"
  columns := [required "id" .integer,required "code" (.string 30),required "name" (.string 120),required "active" .boolean,
    required "created_at" .dateTime,organizationId]
  foreignKeys := [ofOrganization]
  uniques := [["organization_id","code"]]
  checks := []
  apart := noneApart

-- SQLite's lower folds the letters of ASCII alone.
def folded (d : Dialect) (cell : Cell) : Cell :=
  match d,cell with
  | .sqlite,.text s => .text (String.ofList (s.toList.map Char.toLower))
  | .postgresql _ lower,.text s => .text (lower s)
  | _,cell => cell

-- uq_users_email_address_lower.
def users : Table where
  name := "users"
  columns := [required "id" (.string 50),required "full_name" (.string 120),required "email_address" (.string 120),
    required "credential_secure_hash" (.string 255),required "role_type" institutionalRole,optional "unit_code" (.string 50),
    optional "assigned_base_station" (.string 100),optional "current_occupancy_index" accessReadiness,
    optional "reporting_line_manager" (.string 50),optional "initial_login_state" .boolean,
    optional "calendar_feed_token" (.string 64),optional "deactivated_at" .dateTime,organizationId]
  foreignKeys := [refersTo "reporting_line_manager" "users",ofOrganization]
  uniques := [["email_address"],["calendar_feed_token"]]
  checks := []
  apart := fun d one two => folded d (one "email_address") ≠ folded d (two "email_address")

def webhookSubscriptions : Table where
  name := "webhook_subscriptions"
  columns := [required "id" .integer,required "url" (.string 2000),required "event_types" (.string 200),required "active" .boolean,
    optional "paused_at" .dateTime,required "consecutive_failures" .integer,required "cursor" .bigInteger,
    required "secret" (.string 100),optional "previous_secret" (.string 100),optional "previous_secret_expires_at" .dateTime,
    optional "created_at" .dateTime,optional "updated_at" .dateTime,organizationId]
  foreignKeys := [ofOrganization]
  uniques := []
  checks := []
  apart := noneApart

def activities : Table where
  name := "activities"
  columns := [required "id" .integer,required "activity_code" (.string 30),required "activity_title" (.string 150),
    required "unit_code" (.string 50),required "cycle_id" .integer,optional "retired_at" .dateTime,organizationId]
  foreignKeys := [refersTo "cycle_id" "planning_cycles",ofOrganization]
  uniques := [["activity_code","cycle_id"]]
  checks := []
  apart := noneApart

def apiKeys : Table where
  name := "api_keys"
  columns := [required "id" .integer,required "key_hash" (.string 64),required "key_prefix" (.string 12),
    required "label" (.string 100),required "user_id" (.string 50),required "scopes" .text,optional "expires_at" .dateTime,
    optional "created_at" .dateTime,organizationId]
  foreignKeys := [refersTo "user_id" "users",ofOrganization]
  uniques := [["key_hash"]]
  checks := []
  apart := noneApart

def federatedIdentities : Table where
  name := "federated_identities"
  columns := [required "id" .integer,required "issuer_id" .integer,required "subject" (.string 255),required "user_id" (.string 50),
    optional "created_at" .dateTime,organizationId]
  foreignKeys := [refersTo "issuer_id" "federated_issuers",refersTo "user_id" "users",ofOrganization]
  uniques := [["issuer_id","subject"]]
  checks := []
  apart := noneApart

def federatedIssuerKeys : Table where
  name := "federated_issuer_keys"
  columns := [required "id" .integer,required "issuer_id" .integer,required "kid" (.string 100),required "public_key" .text,
    required "not_before" .dateTime,optional "not_after" .dateTime,optional "created_at" .dateTime,organizationId]
  foreignKeys := [refersTo "issuer_id" "federated_issuers",ofOrganization]
  uniques := [["issuer_id","kid"]]
  checks := []
  apart := noneApart

def federatedRoleMap : Table where
  name := "federated_role_map"
  columns := [required "id" .integer,required "issuer_id" .integer,required "group_claim_value" (.string 200),
    required "role_type" institutionalRole,optional "unit_code" (.string 50),organizationId]
  foreignKeys := [refersTo "issuer_id" "federated_issuers",ofOrganization]
  uniques := [["issuer_id","group_claim_value"]]
  checks := [fun row => row "role_type" = .text "STAFF" ∨ row "role_type" = .text "MEMBER"]
  apart := noneApart

def guestGateRegistry : Table where
  name := "guest_gate_registry"
  columns := [required "id" .integer,required "guest_name" (.string 100),required "contact_phone" (.string 20),
    required "originating_body" (.string 150),required "target_staff_id" (.string 50),required "visitation_intent" .text,
    optional "handshake_status" logVerificationState,optional "timestamp_marked" .dateTime,optional "visit_code_hash" (.string 64),
    optional "visit_code_expires_at" .dateTime,optional "decided_by_id" (.string 50),optional "visit_expires_at" .dateTime,
    optional "overstay_notified_at" .dateTime,organizationId]
  foreignKeys := [refersTo "target_staff_id" "users",refersTo "decided_by_id" "users",ofOrganization]
  uniques := [["visit_code_hash"]]
  checks := []
  apart := noneApart

def atLeast (bound : Int) (cell : Cell) : Bool :=
  match cell with
  | .int n => bound ≤ n
  | _ => false

-- ck_resources_pool_capacity.
def resources : Table where
  name := "resources"
  columns := [required "id" .integer,required "code" (.string 30),required "label" (.string 120),
    required "resource_type" (.string 30),optional "unit_code" (.string 50),optional "capacity" .integer,required "mode" resourceMode,
    optional "user_id" (.string 50),optional "latitude" (.numeric 10 8),optional "longitude" (.numeric 11 8),
    optional "altitude_target" (.numeric 6 2),required "active" .boolean,organizationId]
  foreignKeys := [ofClass "resource_type",refersTo "user_id" "users",ofOrganization]
  uniques := [["organization_id","code"]]
  checks := [fun row => row "mode" ≠ .text "POOLED" ∨ atLeast 1 (row "capacity") = true]
  apart := noneApart

def reverseRsvpLogs : Table where
  name := "reverse_rsvp_logs"
  columns := [required "id" .integer,required "submitting_user_id" (.string 50),required "target_absence_date" .date,
    optional "end_date" .date,required "context_justification" .text,optional "approval_state" logVerificationState,
    optional "authorized_by_user_id" (.string 50),organizationId]
  foreignKeys := [refersTo "submitting_user_id" "users",refersTo "authorized_by_user_id" "users",ofOrganization]
  uniques := []
  checks := []
  apart := noneApart

def activityEnrollments : Table where
  name := "activity_enrollments"
  columns := [required "id" .integer,required "activity_id" .integer,required "member_id" (.string 50),organizationId]
  foreignKeys := [refersTo "activity_id" "activities",refersTo "member_id" "users",ofOrganization]
  uniques := [["activity_id","member_id"]]
  checks := []
  apart := noneApart

-- An end at or before the start is on the next date.
def windowOf (day start finish : Cell) : Option (Int × Int) :=
  match day,start,finish with
  | .date day,.time start,.time finish => some (combine day start,combine (if finish ≤ start then day+1 else day) finish)
  | _,_,_ => none

-- _no_overlap: of the rows it is about, no two on one resource cover the same
-- moment. SQLite has no such constraint.
def noOverlap (dateColumn : String) (concerns : Row → Bool) (d : Dialect) (one two : Row) : Bool :=
  match d with
  | .sqlite => true
  | .postgresql _ _ =>
    match windowOf (one dateColumn) (one "time_window_start") (one "time_window_end"),
      windowOf (two dateColumn) (two "time_window_start") (two "time_window_end") with
    | some a,some b =>
      !(concerns one && concerns two && decide (one "resource_id" = two "resource_id" ∧ a.1 < b.2 ∧ b.1 < a.2))
    | _,_ => true

-- ex_reservations_no_overlap, ck_reservations_window and
-- ck_reservations_quantity.
def reservations : Table where
  name := "reservations"
  columns := [required "id" .integer,required "resource_id" .integer,required "reserved_date" .date,
    required "time_window_start" .time,required "time_window_end" .time,required "purpose" (.string 200),
    optional "requested_by_id" (.string 50),required "idempotency_key" (.string 120),required "request_fingerprint" (.string 64),
    optional "external_ref" (.string 120),required "quantity" .integer,required "mode" resourceMode,required "status" reservationStatus,
    required "created_at" .dateTime,optional "cancelled_at" .dateTime,optional "parent_reservation_id" .integer,organizationId]
  foreignKeys := [refersTo "resource_id" "resources",refersTo "requested_by_id" "users",
    refersTo "parent_reservation_id" "reservations",ofOrganization]
  uniques := [["requested_by_id","idempotency_key"],["requested_by_id","external_ref"]]
  checks := [fun row => row "time_window_end" ≠ row "time_window_start",fun row => atLeast 1 (row "quantity")]
  apart := noOverlap "reserved_date" (fun row => row "status" = .text "HELD" ∧ row "mode" = .text "EXCLUSIVE")

def resourceRequirements : Table where
  name := "resource_requirements"
  columns := [required "id" .integer,required "owner_kind" requirementOwner,required "owner_id" .integer,
    optional "target_resource_id" .integer,optional "target_kind" (.string 30),required "quantity" .integer,
    required "before_minutes" .integer,required "after_minutes" .integer,optional "enforcement" requirementEnforcement,
    required "created_at" .dateTime,organizationId]
  foreignKeys := [refersTo "target_resource_id" "resources",ofClass "target_kind",ofOrganization]
  uniques := []
  checks := [fun row => (row "target_resource_id" ≠ .null ∧ row "target_kind" = .null) ∨
      (row "target_resource_id" = .null ∧ row "target_kind" ≠ .null),
    fun row => atLeast 1 (row "quantity"),fun row => atLeast 0 (row "before_minutes") && atLeast 0 (row "after_minutes")]
  apart := noneApart

def structuralMasterSlots : Table where
  name := "structural_master_slots"
  columns := [required "id" .integer,required "rrule" (.string 255),required "dtstart" .date,required "time_window_start" .time,
    required "time_window_end" .time,required "activity_id" .integer,optional "primary_lead_id" (.string 50),
    optional "resource_id" .integer,optional "retired_at" .dateTime,organizationId]
  foreignKeys := [refersTo "activity_id" "activities",refersTo "primary_lead_id" "users",refersTo "resource_id" "resources",
    ofOrganization]
  uniques := []
  checks := []
  apart := noneApart

-- ex_daily_ledger_no_overlap.
def dailyLedger : Table where
  name := "daily_ledger"
  columns := [required "id" .bigInteger,required "target_date" .date,optional "time_window_start" .time,
    optional "time_window_end" .time,optional "master_slot_id" .integer,required "activity_id" .integer,
    optional "active_lead_id" (.string 50),optional "substitute_lead_id" (.string 50),optional "resource_id" .integer,
    optional "delivery_format" executionMode,optional "virtual_connection_string" .text,optional "latitude_target" (.numeric 10 8),
    optional "longitude_target" (.numeric 11 8),optional "altitude_target" (.numeric 6 2),optional "precision_radius_meters" .integer,
    optional "operational_state" dynamicState,organizationId]
  foreignKeys := [refersTo "master_slot_id" "structural_master_slots",refersTo "activity_id" "activities",
    refersTo "active_lead_id" "users",refersTo "substitute_lead_id" "users",refersTo "resource_id" "resources",ofOrganization]
  uniques := [["target_date","master_slot_id"]]
  checks := []
  apart := noOverlap "target_date" (fun row => row "resource_id" ≠ .null)

def ledgerAnnotations : Table where
  name := "ledger_annotations"
  columns := [required "id" .integer,required "ledger_instance_id" .bigInteger,required "creator_id" (.string 50),
    required "classification_tag" (.string 30),required "annotation_payload" .text,optional "distribution_timestamp" .dateTime,
    organizationId]
  foreignKeys := [refersTo "ledger_instance_id" "daily_ledger",refersTo "creator_id" "users",ofOrganization]
  uniques := []
  checks := []
  apart := noneApart

def verificationLedger : Table where
  name := "verification_ledger"
  columns := [required "id" .bigInteger,required "ledger_instance_id" .bigInteger,required "member_id" (.string 50),
    required "marking_status" verificationMetric,optional "authorizing_agent_id" (.string 50),
    optional "modification_timestamp" .dateTime,organizationId]
  foreignKeys := [refersTo "ledger_instance_id" "daily_ledger",refersTo "member_id" "users",
    refersTo "authorizing_agent_id" "users",ofOrganization]
  uniques := [["ledger_instance_id","member_id"]]
  checks := []
  apart := noneApart

-- EXPORTED: the tables a row of another may name come before it.
def exported : List Table :=
  [organizations,auditRecords,changeMarkers,federatedIssuers,planningCycles,resourceClasses,users,webhookSubscriptions,activities,
    apiKeys,federatedIdentities,federatedIssuerKeys,federatedRoleMap,guestGateRegistry,resources,reverseRsvpLogs,
    activityEnrollments,reservations,resourceRequirements,structuralMasterSlots,dailyLedger,ledgerAnnotations,verificationLedger]

-- EXCLUDED.
def excluded : List String := ["refresh_tokens","idempotency_records","webhook_deliveries","webhook_attempts"]

-- SECRET_COLUMNS.
def secretColumns : List (String × List String) :=
  [("users",["calendar_feed_token","credential_secure_hash"]),("api_keys",["key_hash"]),
    ("guest_gate_registry",["visit_code_hash"]),("webhook_subscriptions",["secret","previous_secret"])]

end ChronosLedger.Portability
