/- Module: TicketWarden
   source: apps/api/src
   digest: The ticket resolution service of TicketWarden. -/

import TicketWarden.Guardrails.Containment
import TicketWarden.Guardrails.Insertion
import TicketWarden.Guardrails.Padding
import TicketWarden.Guardrails.Stripping
import TicketWarden.Service.Approved
import TicketWarden.Service.Billing
import TicketWarden.Service.DispatchAudit
import TicketWarden.Service.Inbound
import TicketWarden.Service.Isolation
import TicketWarden.Service.LeakGate
import TicketWarden.Service.Listings
import TicketWarden.Service.Shown
import TicketWarden.Service.Unconfigured
import TicketWarden.Service.WellFormed
import TicketWarden.Service.Work
