import GatedLog.Transcript
import GatedLog.Proofs.Settings.Canonical
import GatedLog.Proofs.Machine.Frozen
import GatedLog.Proofs.Machine.Nesting
import GatedLog.Proofs.Machine.Delivery
import GatedLog.Proofs.Machine.Ownership
import GatedLog.Proofs.Machine.Unwinding
import GatedLog.Proofs.Machine.Agreement
import GatedLog.Proofs.Machine.Admission
import GatedLog.Proofs.Machine.Announcements
import GatedLog.Proofs.Machine.Independence
import GatedLog.Proofs.Machine.Forgetting
import GatedLog.Proofs.Machine.ForeignCalls
import GatedLog.Proofs.Machine.Callbacks
import GatedLog.Proofs.Machine.BuilderGates
import GatedLog.Proofs.Machine.Configuration
import GatedLog.Proofs.Machine.Handles
import GatedLog.Proofs.Machine.Records
import GatedLog.Proofs.Machine.Printing
import GatedLog.Proofs.Machine.Subsequence
import GatedLog.Proofs.Json.Continuation
import GatedLog.Proofs.Settings.FirstProblem
import GatedLog.Proofs.Settings.UnknownMembers
import GatedLog.Proofs.Settings.Spelling
import GatedLog.Proofs.Environment.Values
import GatedLog.Proofs.Machine.EnvironmentSteps
import GatedLog.Proofs.Reading.Severities
import GatedLog.Proofs.Reading.Components
import GatedLog.Proofs.Machine.Verdicts
import GatedLog.Proofs.Machine.BuilderFolds
import GatedLog.Proofs.Reading.Literals
import GatedLog.Proofs.Machine.Statements
import GatedLog.Proofs.ForeignTexts
import GatedLog.Proofs.Gates
import GatedLog.Proofs.Mask.Lists
import GatedLog.Proofs.Codes
import GatedLog.Proofs.Console.Unambiguous
import GatedLog.Proofs.Machine.Warnings
import GatedLog.Proofs.Numbers
