import Rooeel.Lib.Resumption
import Rooeel.Lib.Interleaving
import Rooeel.Lib.Exclusion
import Rooeel.Lib.History
import Rooeel.Lib.Relational
import Rooeel.Lib.JavaScript
import Rooeel.Schema
import Rooeel.Service
import Rooeel.Access.Resources
import Rooeel.Access.AccessMap
import Rooeel.Task.Resource
import Rooeel.Task.Operations
import Rooeel.Task.Authorization
import Rooeel.Access.Guard
import Rooeel.Access.DepartmentScope
import Rooeel.Project.View
import Rooeel.Access.ReadPaths
import Rooeel.Project.Operations
import Rooeel.Project.Changes
import Rooeel.Project.ServiceOp
import Rooeel.Project.GuardedWrites
import Rooeel.Project.Steps
import Rooeel.Project.Runs
import Rooeel.Project.Membership
import Rooeel.Project.Isolation
import Rooeel.Task.Creator
import Rooeel.Request.Decision
import Rooeel.Auth.Refresh
import Rooeel.Access.Policies
import Rooeel.Project.Lists
import Rooeel.Access.Confidentiality
import Rooeel.Auth.Guards
import Rooeel.Auth.Logout
import Rooeel.Auth.PasswordReset
import Rooeel.User.Accounts
import Rooeel.Auth.ResetBinding
import Rooeel.User.SelfService
import Rooeel.Auth.Login
import Rooeel.Auth.Sessions
import Rooeel.Auth.Lineage
import Rooeel.User.AccountOps
import Rooeel.User.AccountEffects
import Rooeel.User.AccountInvariants
import Rooeel.Access.Authority
import Rooeel.Access.RowOrder
import Rooeel.Access.PermissionRows
import Rooeel.Auth.ResetEquivalence
import Rooeel.Project.WorkOrders
import Rooeel.Auth.LogoutRefresh
import Rooeel.Access.PolicyFrame
import Rooeel.Project.TaskVisibility
import Rooeel.Auth.LogoutEffects
import Rooeel.Request.Atomicity
import Rooeel.Request.Progress
import Rooeel.User.ResetMail
import Rooeel.Auth.Enumeration
import Rooeel.Auth.LiveLinks
import Rooeel.Project.PresignedUrl
import Rooeel.Project.WorkOrderFailures
import Rooeel.Task.Documents
import Rooeel.Config.Environment
import Rooeel.Auth.TokenExpiry
import Rooeel.Lib.Regroup
import Rooeel.User.RandomPassword
import Rooeel.Lib.Regex
import Rooeel.Auth.RefreshCookie
import Rooeel.Lib.Integrity
import Rooeel.Lib.Deletion
import Rooeel.Store.Entities
import Rooeel.Store.Referential
import Rooeel.Store.Cascades
import Rooeel.Store.Writes
import Rooeel.User.AccountWrites
import Rooeel.Api.Requests
import Rooeel.Api.Privileges
import Rooeel.Api.Anonymous
import Rooeel.Api.Outsiders
import Rooeel.Lib.Commitment
import Rooeel.Api.AllOrNothing
import Rooeel.Lib.Delivery
import Rooeel.Api.RemovedAccounts
import Rooeel.Api.Removals
import Rooeel.Api.Continuity
