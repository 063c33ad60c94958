import ActionHarbor.ForStd.Transition
import ActionHarbor.ForStd.TokenBook
import ActionHarbor.ForStd.Rounding
import ActionHarbor.Model.Js
import ActionHarbor.Model.Node
import ActionHarbor.Model.Hash
import ActionHarbor.Model.Contracts
import ActionHarbor.Model.Domain
import ActionHarbor.Model.Verifier
import ActionHarbor.Model.Ledger
import ActionHarbor.Model.Policy
import ActionHarbor.Model.Gateway
import ActionHarbor.Model.Interleaving
import ActionHarbor.Spec.LedgerAppend
import ActionHarbor.Spec.ExecutionSteps
import ActionHarbor.Spec.WorldSteps
import ActionHarbor.Spec.AtMostOnce
import ActionHarbor.Spec.Authenticity
import ActionHarbor.Spec.Provenance
import ActionHarbor.Spec.Finality
import ActionHarbor.Spec.Replay
import ActionHarbor.Spec.SingleUse
import ActionHarbor.Model.AdapterInterleaving
import ActionHarbor.Spec.FakeAdapters
import ActionHarbor.Spec.AdapterSteps
import ActionHarbor.Spec.OneReceipt
import ActionHarbor.Spec.CompleteCalls
import ActionHarbor.Spec.Belonging
import ActionHarbor.Model.Json
import ActionHarbor.Model.ModelAdapter
import ActionHarbor.Model.Orchestrator
import ActionHarbor.Model.Server
import ActionHarbor.Spec.Turns
import ActionHarbor.Spec.Authority
import ActionHarbor.Spec.LegalTransitions
import ActionHarbor.Model.LedgerRows
import ActionHarbor.Spec.LiveLedger
import ActionHarbor.Spec.JsonNumbers
import ActionHarbor.Spec.JsonText
import ActionHarbor.ForStd.AssocList
import ActionHarbor.Spec.SameJson
import ActionHarbor.Spec.HashChain
import ActionHarbor.Spec.JudgedResource
import ActionHarbor.Spec.MintSoundness
import ActionHarbor.Spec.PlannedParams
import ActionHarbor.Model.LedgerInterleaving
import ActionHarbor.Spec.AuditRows
import ActionHarbor.Spec.WriteAhead
import ActionHarbor.Model.Projection
import ActionHarbor.Spec.AuditTrail
import ActionHarbor.Spec.RunEffects
import ActionHarbor.Spec.RegistryReads
import ActionHarbor.Spec.Isolation
import ActionHarbor.Model.Views
import ActionHarbor.Spec.Nonces
import ActionHarbor.Spec.CanonicalText
import ActionHarbor.Spec.Postconditions
import ActionHarbor.Spec.Redaction
import ActionHarbor.Spec.TimeChecks
import ActionHarbor.Spec.PlanHash
import ActionHarbor.Spec.CallOutcomes
import ActionHarbor.Spec.StoreIndexes
import ActionHarbor.Spec.LaterCalls
import ActionHarbor.Spec.VerifiedReplays
import ActionHarbor.Spec.Reconciliation
import ActionHarbor.Spec.PolicyOutcomes
import ActionHarbor.Spec.CallHistories
import ActionHarbor.Spec.RowLists
import ActionHarbor.Model.Grading
import ActionHarbor.Spec.RawProposals
import ActionHarbor.Spec.ReasonCodeSets
import ActionHarbor.Spec.ProposalGrammar
import ActionHarbor.Model.ProposalIssues
import ActionHarbor.Spec.UnknownFields
import ActionHarbor.ForStd.Draining
import ActionHarbor.Spec.Answers
import ActionHarbor.Spec.OfferedActions
import ActionHarbor.Spec.ShownSuccess
import ActionHarbor.Spec.RunLife
import ActionHarbor.ForStd.Utf
import ActionHarbor.Model.Http
import ActionHarbor.Spec.Bodies
import ActionHarbor.Spec.Routing
import ActionHarbor.Model.LedgerPreview
import ActionHarbor.Spec.RowSchema
import ActionHarbor.Spec.LedgerPreview
import ActionHarbor.Model.Page
import ActionHarbor.Spec.Sessions
import ActionHarbor.Spec.ShownRuns
import ActionHarbor.Spec.CallCounts
import ActionHarbor.Spec.Scenarios
import ActionHarbor.Spec.Races
